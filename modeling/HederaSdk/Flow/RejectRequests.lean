import HederaSdk.Flow.RejectSigning
import HederaSdk.Transaction.Incomplete

/-!
# Requests of a rejection

What a request carries depends on how far the flow's own call of `signWith` has come when it is made.
-/

namespace HederaSdk

open Library
open Transaction (Grows SignedBy Progress SignCall)

namespace RejectSigner

variable {proto : Proto} (flow : RejectSigner)

/-! ## What a call says -/

/-- The flow's signer is the first that is asked for a request on demand. -/
def Registered (tx : Transaction) : Prop :=
  [flow.publicKey] <+: tx.publicKeys ∧ [some flow.transactionSigner] <+: tx.transactionSigners

/-- The flow's signer has signed what comes before the position. -/
def SignedBefore (position : Nat) (tx : Transaction) : Prop :=
  ∀ i < position, ∀ signed, tx.signedTransactions.list[i]? = some signed →
    SignedBy flow.publicKey flow.transactionSigner signed

/-- What the progress of the flow's call says of the transaction. -/
def CallHolds (tx : Transaction) : Progress → Prop
  | .waiting position => tx.isFrozenOrOnDemand = true ∧ tx.signOnDemand = false ∧ flow.SignedBefore position tx
  | .resolved => tx.isFrozenOrOnDemand = true ∧
      if tx.signOnDemand then flow.Registered tx
      else flow.SignedBefore tx.signedTransactions.list.length tx
  | .rejected _ => True

/-- The first call on a transaction is the flow's own, and what it says is so. -/
def Begun (signing : Transaction.Signing) : Prop :=
  ∃ (progress : Progress) (rest : List SignCall),
    signing.calls = ⟨flow.publicKey, flow.transactionSigner, progress⟩ :: rest ∧ flow.CallHolds signing.tx progress

/-- The flow's own call has resolved. -/
def Resolved (signing : Transaction.Signing) : Prop := ∃ call ∈ signing.calls.head?, call.progress = .resolved

variable {flow} {tx tx' : Transaction}

theorem SignedBefore.grows {position : Nat} (signed : flow.SignedBefore position tx) (grows : Grows tx tx') :
    flow.SignedBefore position tx' := by
  intro i before signed' found
  obtain ⟨old, here, body, more⟩ := grows.pairs i signed' found
  obtain ⟨moment, signature, made, pair⟩ := signed i before old here
  exact ⟨moment, signature, body ▸ made, more pair⟩

theorem Registered.grows (registered : flow.Registered tx) (grows : Grows tx tx') : flow.Registered tx' :=
  ⟨registered.1.trans grows.keys, registered.2.trans grows.signers⟩

theorem CallHolds.grows {progress : Progress} (holds : flow.CallHolds tx progress) (grows : Grows tx tx') :
    flow.CallHolds tx' progress := by
  cases progress with
  | rejected e => trivial
  | waiting position =>
      obtain ⟨frozen, immediate, signed⟩ := holds
      exact ⟨grows.frozen frozen, grows.mode.trans immediate, signed.grows grows⟩
  | resolved =>
      obtain ⟨frozen, holds⟩ := holds
      refine ⟨grows.frozen frozen, ?_⟩
      rw [grows.mode, grows.length]
      split at holds
      · rename_i onDemand
        rw [if_pos onDemand]
        exact holds.grows grows
      · rename_i immediate
        rw [if_neg immediate]
        exact holds.grows grows

theorem Begun.grows {signing : Transaction.Signing} (begun : flow.Begun signing) (grows : Grows signing.tx tx') :
    flow.Begun { signing with tx := tx' } := by
  obtain ⟨progress, rest, calls, holds⟩ := begun
  exact ⟨progress, rest, calls, holds.grows grows⟩

/-- A further call leaves the flow's own at the head. -/
theorem Begun.call {signing : Transaction.Signing} (begun : flow.Begun signing) (key : PublicKey)
    (signer : Signer) : flow.Begun (signing.step (.call key signer)) := by
  obtain ⟨progress, rest, calls, holds⟩ := begun
  refine ⟨progress, rest ++ [⟨key, signer, (Transaction.Signing.start key signer signing.tx).2⟩], ?_, ?_⟩
  · simp [Transaction.Signing.step, calls]
  · exact holds.grows (.start key signer signing.tx)

/-- A call that is signed at once goes on until every signature is there. -/
theorem callHolds_proceed {position : Nat} (frozen : tx.isFrozenOrOnDemand = true)
    (immediate : tx.signOnDemand = false) (signed : flow.SignedBefore position tx) :
    flow.CallHolds tx (Transaction.Signing.proceed tx position) := by
  by_cases inside : position < tx.signedTransactions.list.length
  · rw [Transaction.Signing.proceed, if_pos inside]
    exact ⟨frozen, immediate, signed⟩
  · rw [Transaction.Signing.proceed, if_neg inside]
    refine ⟨frozen, ?_⟩
    rw [if_neg (by simp [immediate])]
    intro i before
    exact signed i (by omega)

/-- The flow's call goes on from one signature to the next. -/
theorem CallHolds.resume {position : Nat} (holds : flow.CallHolds tx (.waiting position)) (moment : Nat) :
    flow.CallHolds
      (Transaction.Signing.resume ⟨flow.publicKey, flow.transactionSigner, .waiting position⟩ position moment tx).1
      (Transaction.Signing.resume ⟨flow.publicKey, flow.transactionSigner, .waiting position⟩ position moment tx).2 := by
  obtain ⟨frozen, immediate, signed⟩ := holds
  unfold Transaction.Signing.resume
  cases found : tx.signedTransactions.list[position]? with
  | none =>
      refine ⟨frozen, ?_⟩
      rw [if_neg (by simp [immediate])]
      have beyond := List.getElem?_eq_none_iff.mp found
      intro i before
      exact signed i (before.trans_le beyond)
  | some one =>
      simp only
      cases made : flow.transactionSigner moment one.bodyBytes with
      | error e => trivial
      | ok signature =>
          have grows := Grows.addPairAt position (flow.publicKey.toProtobufSignature signature) tx
          have next : flow.SignedBefore (position + 1)
              (Transaction.Signing.addPairAt position (flow.publicKey.toProtobufSignature signature) tx) := by
            intro i before signed' there
            rcases Nat.lt_succ_iff_lt_or_eq.mp before with earlier | rfl
            · exact (signed.grows grows) i earlier signed' there
            · simp only [Transaction.Signing.addPairAt, Transaction.withSigned, List.getElem?_modify, if_true,
                found, Option.map_eq_map, Option.map_some, Option.some.injEq] at there
              subst there
              refine ⟨moment, signature, made, ?_⟩
              simp
          have same : Transaction.Signing.proceed tx (position + 1) = Transaction.Signing.proceed
              (Transaction.Signing.addPairAt position (flow.publicKey.toProtobufSignature signature) tx)
              (position + 1) := by
            simp [Transaction.Signing.proceed, Transaction.Signing.addPairAt, Transaction.withSigned]
          rw [same]
          exact callHolds_proceed (grows.frozen frozen) (grows.mode.trans immediate) next

/-- However signers settle, the flow's call holds. -/
theorem Begun.settle {signing : Transaction.Signing} (begun : flow.Begun signing) (index moment : Nat) :
    flow.Begun (signing.step (.settle index moment)) := by
  obtain ⟨progress, rest, calls, holds⟩ := begun
  cases index with
  | zero =>
      cases progress with
      | resolved => exact ⟨.resolved, rest, by simp [Transaction.Signing.step, calls], by
          simpa [Transaction.Signing.step, calls] using holds⟩
      | rejected e => exact ⟨.rejected e, rest, by simp [Transaction.Signing.step, calls], trivial⟩
      | waiting position =>
          have next := holds.resume moment
          refine ⟨(Transaction.Signing.resume ⟨flow.publicKey, flow.transactionSigner, .waiting position⟩
            position moment signing.tx).2, rest, ?_, ?_⟩
          · simp [Transaction.Signing.step, calls]
          · simpa [Transaction.Signing.step, calls] using next
  | succ index =>
      have other : (signing.step (.settle (index + 1) moment)).calls.head? = signing.calls.head? ∧
          Grows signing.tx (signing.step (.settle (index + 1) moment)).tx := by
        simp only [Transaction.Signing.step]
        split
        · exact ⟨rfl, .refl _⟩
        · rename_i call found
          split
          · refine ⟨?_, .resume _ _ _ _⟩
            rw [calls, List.set_cons_succ]
            rfl
          · exact ⟨rfl, .refl _⟩
      obtain ⟨head, grows⟩ := other
      rw [calls] at head
      obtain ⟨rest', later⟩ := List.head?_eq_some_iff.mp head
      exact ⟨progress, rest', later, holds.grows grows⟩

end RejectSigner

/-! ## Steps of the flow -/

namespace RejectRun

variable {proto : Proto} {client : Client} {run : RejectRun}

theorem grows_withNode (node : AccountId) (tx : Transaction) : Grows tx (withNode node tx) := by
  unfold withNode
  split
  · exact .of_same rfl rfl (List.prefix_refl _) (List.prefix_refl _)
  · exact .refl _

theorem grows_advanceNode (tx : Transaction) : Grows tx (advanceNode tx) :=
  .of_same rfl rfl (List.prefix_refl _) (List.prefix_refl _)

/-- What holds of each transaction and its calls, and that signing and executing keep, is so after a step. -/
theorem step_parts {P : RejectPart → Transaction.Signing → Prop}
    (settle : ∀ part signing index moment, P part signing → P part (signing.step (.settle index moment)))
    (call : ∀ part signing key signer, P part signing → P part (signing.step (.call key signer)))
    (grows : ∀ part signing tx, Grows signing.tx tx → P part signing → P part { signing with tx })
    (prepared : ∀ part signing picked checksums generated outcome tx,
      (prepare proto client picked checksums generated).run signing.tx = (outcome, tx) → P part signing →
        P part { signing with tx })
    (holds : ∀ part, P part (run.part part)) (event : RejectEvent) (part : RejectPart) :
    P part ((run.step proto client event).part part) := by
  have put : ∀ (own : RejectPart) (signing : Transaction.Signing), P own signing →
      P part ((run.setPart own signing).part part) := by
    intro own signing here
    by_cases same : part = own
    · subst same
      rwa [part_setPart]
    · rw [part_setPart_other same]
      exact holds part
  have grow : ∀ (own : RejectPart) (tx : Transaction), Grows (run.part own).tx tx →
      P part ((run.setTx own tx).part part) := fun own tx more =>
    put own _ (grows own _ tx more (holds own))
  unfold step
  split
  · exact put _ _ (settle _ _ _ _ (holds _))
  · rename_i own _
    unfold beginExecute
    split
    · rename_i e tx ran
      exact put own _ (prepared own _ _ _ _ _ _ ran (holds own))
    · rename_i tx ran
      have ready := prepared own _ _ _ _ _ _ ran (holds own)
      refine put own _ ?_
      unfold signWithOperator
      split
      · exact ready
      · exact call _ _ _ _ ready
  · unfold awaitOperator
    split
    · exact holds part
    · exact holds part
    · split <;> exact holds part
  · rename_i node moment healthy own _
    have asked : Grows (run.part own).tx (withNode node (run.part own).tx) := grows_withNode _ _
    have made := asked.trans (.makeRequestAsync proto moment _)
    unfold attempt
    split
    · rename_i e tx ran
      rw [ran] at made
      exact grow own tx made
    · rename_i request tx ran
      rw [ran] at made
      have moved := made.trans (grows_advanceNode tx)
      split
      · exact grow own _ moved
      · exact grow own _ moved
  · exact grow _ _ (grows_advanceNode _)
  · exact holds part
  · rename_i precheckCode generated own nodeId _
    have judged := Grows.shouldRetry precheckCode generated (run.part own).tx
    unfold judge
    split
    · rename_i e tx ran
      rw [ran] at judged
      exact grow own tx judged
    · rename_i status tx ran
      rw [ran] at judged
      exact grow own tx judged
    · rename_i status tx ran
      rw [ran] at judged
      exact grow own tx judged
    · rename_i status tx ran
      rw [ran] at judged
      have mapped := judged.trans (Grows.mapStatusError precheckCode nodeId tx)
      split
      · rename_i e tx' ran'
        rw [ran'] at mapped
        exact grow own tx' mapped
      · rename_i e tx' ran'
        rw [ran'] at mapped
        exact grow own tx' mapped
  · exact holds part
  · exact holds part
  · exact holds part
  · exact holds part

end RejectRun

/-! ## Runs -/

/-- The part that is executed before. -/
def RejectPart.before : RejectPart → List RejectPart
  | .tokenReject => []
  | .tokenDissociate => [.tokenReject]

/-- The parts that a request was handed over for. -/
def RejectStage.passed : RejectStage → List RejectPart
  | .executing part | .signing part | .attempting part => part.before
  | .calling part _ | .receiving part => part.before ++ [part]
  | .returned => [.tokenReject, .tokenDissociate]
  | .rejected _ => []

namespace RejectSigner

variable {proto : Proto} {client : Client} {flow : RejectSigner} {run : RejectRun}

/-- The request carries a signature that the flow's signer has made. -/
def Carries (proto : Proto) (flow : RejectSigner) (request : ProtoTransaction) : Prop :=
  ∃ signed, request = proto.wrap signed ∧ SignedBy flow.publicKey flow.transactionSigner signed

/-- A request is handed over only when the flow's own call of `signWith` has resolved. -/
def Timely (run : RejectRun) : RejectEvent → Prop
  | .attempt _ _ true => ∀ part, run.stage = .attempting part → Resolved (run.part part)
  | _ => True

theorem resolved_step {signing : Transaction.Signing} (event : Transaction.Signing.Event)
    (resolved : Resolved signing) : Resolved (signing.step event) := by
  obtain ⟨call, head, done⟩ := resolved
  obtain ⟨rest, calls⟩ := List.head?_eq_some_iff.mp head
  cases event with
  | call key signer => exact ⟨call, by simp [Transaction.Signing.step, calls], done⟩
  | settle index moment =>
      cases index with
      | zero => exact ⟨call, by simp [Transaction.Signing.step, calls, done], done⟩
      | succ index =>
          refine ⟨call, ?_, done⟩
          simp only [Transaction.Signing.step]
          split
          · exact head
          · split
            · rw [calls, List.set_cons_succ]
              rfl
            · exact head

/-- A signed pair comes first among the signatures that are made on demand. -/
theorem signPairs_registered {tx : Transaction} (registered : flow.Registered tx) {bodyBytes : Bytes}
    {moment : Nat} {pairs : List SignaturePair}
    (made : Transaction.signPairs bodyBytes moment tx.publicKeys tx.transactionSigners = .ok pairs) :
    ∃ signature, flow.transactionSigner moment bodyBytes = .ok signature ∧
      flow.publicKey.toProtobufSignature signature ∈ pairs := by
  obtain ⟨⟨keys, keysAre⟩, ⟨signers, signersAre⟩⟩ := registered
  rw [← keysAre, ← signersAre] at made
  simp only [List.cons_append, List.nil_append, Transaction.signPairs, List.head?_cons, Option.join_some,
    List.tail_cons] at made
  cases signs : flow.transactionSigner moment bodyBytes with
  | error e =>
      rw [signs] at made
      cases made
  | ok signature =>
      rw [signs] at made
      obtain ⟨others, _, rfl⟩ := except_map_eq_ok.mp made
      exact ⟨signature, rfl, List.mem_cons_self⟩

/-- Once the flow's call has resolved, every request carries its signature. -/
theorem carries_makeRequestAsync {tx tx' : Transaction} (holds : flow.CallHolds tx .resolved) {moment : Nat}
    {request : ProtoTransaction}
    (made : (Transaction.makeRequestAsync proto moment).run tx = (.ok request, tx')) :
    flow.Carries proto request := by
  obtain ⟨_, holds⟩ := holds
  cases mode : tx.signOnDemand with
  | true =>
      rw [if_pos mode] at holds
      obtain ⟨pairs, signing, rfl, _⟩ := Transaction.makeRequestAsync_onDemand mode made
      obtain ⟨signature, signs, member⟩ := signPairs_registered holds signing
      exact ⟨_, rfl, moment, signature, signs, member⟩
  | false =>
      rw [if_neg (by simp [mode])] at holds
      obtain ⟨signed, found, rfl, _⟩ := Transaction.makeRequestAsync_immediate mode made
      have inside := (List.getElem?_eq_some_iff.mp found).1
      exact ⟨signed, rfl, holds _ inside signed found⟩

/-- What holds in every state of a run whose requests are timely. -/
structure Sound (proto : Proto) (flow : RejectSigner) (run : RejectRun) : Prop where
  begun : (∃ e, run.stage = .rejected e) ∨ ∀ part, flow.Begun (run.part part)
  carried : ∀ request ∈ run.requests, flow.Carries proto request
  passed : ∀ part ∈ run.stage.passed, Resolved (run.part part)

/-- Preparing a transaction that is frozen already leaves what the flow's call says. -/
theorem begun_prepare {signing : Transaction.Signing} {tx : Transaction}
    {picked : Except JsError (List AccountId)} {checksums : TransactionData → Except JsError Unit}
    {generated : Timestamp} {outcome : Except JsError Unit}
    (ran : (RejectRun.prepare proto client picked checksums generated).run signing.tx = (outcome, tx))
    (begun : flow.Begun signing) : flow.Begun { signing with tx } := by
  obtain ⟨progress, rest, calls, holds⟩ := begun
  refine ⟨progress, rest, calls, ?_⟩
  have frozen (ready : signing.tx.isFrozenOrOnDemand = true) : Grows signing.tx tx := by
    have kept : Method.Keeps (fun tx : Transaction => Grows signing.tx tx) (do
        Transaction.validateOwnChecksums client checksums
        Method.update (Transaction.takeOperator client) : TransactionMethod Unit) := by
      refine .bind (.bind .this fun _ => .ite (.ofExcept _) (.pure _)) fun _ => .update fun _ grows => ?_
      exact grows.trans (.of_same rfl rfl (List.prefix_refl _) (List.prefix_refl _))
    have skips : (RejectRun.prepare proto client picked checksums generated).run signing.tx =
        (do
          Transaction.validateOwnChecksums client checksums
          Method.update (Transaction.takeOperator client) : TransactionMethod Unit).run
            { signing.tx with transactionNodeIds := client.nodeTexts } := by
      have left : (Transaction.freezeForExecution proto client picked generated).run
          { signing.tx with transactionNodeIds := client.nodeTexts } =
            (.ok (), { signing.tx with transactionNodeIds := client.nodeTexts }) := by
        rw [Transaction.freezeForExecution, Method.run_this_bind, if_pos (show Transaction.isFrozenOrOnDemand
          { signing.tx with transactionNodeIds := client.nodeTexts } = true from ready)]
        rfl
      rw [RejectRun.prepare, Method.run_update_bind]
      exact Method.run_bind_ok left
    have after := kept { signing.tx with transactionNodeIds := client.nodeTexts }
      (.of_same rfl rfl (List.prefix_refl _) (List.prefix_refl _))
    rwa [← skips, ran] at after
  cases progress with
  | rejected e => trivial
  | waiting position => exact holds.grows (frozen holds.1)
  | resolved => exact holds.grows (frozen holds.1)

/-- A flow that has failed does not go on. -/
theorem rejected_step {e : JsError} (rejected : run.stage = .rejected e) (event : RejectEvent) :
    (run.step proto client event).stage = .rejected e ∧ (run.step proto client event).requests = run.requests := by
  unfold RejectRun.step
  rw [rejected]
  cases event with
  | settle part index moment => exact ⟨by simp [rejected], by simp⟩
  | receipt outcome => cases outcome <;> exact ⟨rejected, rfl⟩
  | _ => exact ⟨rejected, rfl⟩

/-- The stages that a timely step leads to are those of parts whose calls have resolved. -/
theorem passed_step {event : RejectEvent} (timely : Timely run event) {part : RejectPart}
    (later : part ∈ (run.step proto client event).stage.passed) :
    part ∈ run.stage.passed ∨ Resolved (run.part part) := by
  have fails {e : JsError} {P : Prop} (here : part ∈ (RejectStage.rejected e).passed) : P :=
    absurd here List.not_mem_nil
  unfold RejectRun.step at later
  split at later
  · rw [RejectRun.stage_setPart] at later
    exact .inl later
  · rename_i own staged
    unfold RejectRun.beginExecute at later
    rw [staged]
    split at later
    · exact fails later
    · exact .inl later
  · rename_i own staged
    unfold RejectRun.awaitOperator at later
    rw [staged]
    split at later
    · exact .inl later
    · exact .inl later
    · split at later
      · rw [staged] at later
        exact .inl later
      · exact .inl later
      · exact fails later
  · rename_i node moment healthy own staged
    unfold RejectRun.attempt at later
    rw [staged]
    split at later
    · exact fails later
    · split at later
      · rename_i isHealthy
        subst isHealthy
        rcases List.mem_append.mp later with before | this
        · exact .inl before
        · rw [List.mem_singleton] at this
          subst this
          exact .inr (timely part staged)
      · rw [RejectRun.setTx, RejectRun.stage_setPart, staged] at later
        exact .inl later
  · rename_i own staged
    rw [RejectRun.setTx, RejectRun.stage_setPart] at later
    exact .inl later
  · exact fails later
  · rename_i precheckCode generated own nodeId staged
    unfold RejectRun.judge at later
    rw [staged]
    split at later
    · exact fails later
    · exact .inl (List.mem_append_left _ later)
    · exact .inl later
    · split at later
      · exact fails later
      · exact fails later
  · rename_i e again own nodeId staged
    rw [staged]
    simp only at later
    split at later
    · exact .inl (List.mem_append_left _ later)
    · exact fails later
  · rename_i own staged
    rw [staged]
    cases own with
    | tokenReject => exact .inl later
    | tokenDissociate => exact .inl later
  · exact fails later
  · exact .inl later

/-- A step hands over one request at most, when the call of its part has resolved. -/
theorem carried_step {event : RejectEvent} (timely : Timely run event) (begun : ∀ part, flow.Begun (run.part part))
    (carried : ∀ request ∈ run.requests, flow.Carries proto request) :
    ∀ request ∈ (run.step proto client event).requests, flow.Carries proto request := by
  unfold RejectRun.step
  split
  · rw [RejectRun.requests_setPart]
    exact carried
  · rename_i own staged
    unfold RejectRun.beginExecute
    split
    · simpa [RejectRun.setTx] using carried
    · simpa using carried
  · unfold RejectRun.awaitOperator
    split
    · exact carried
    · exact carried
    · split <;> exact carried
  · rename_i node moment healthy own staged
    unfold RejectRun.attempt
    split
    · simpa [RejectRun.setTx] using carried
    · rename_i request tx made
      split
      · rename_i isHealthy
        subst isHealthy
        intro request' member
        rcases List.mem_append.mp member with before | this
        · exact carried request' before
        · rw [List.mem_singleton] at this
          subst this
          obtain ⟨call, head, done⟩ := timely own staged
          obtain ⟨progress, rest, calls, holds⟩ := begun own
          rw [calls, List.head?_cons, Option.mem_some_iff] at head
          subst head
          obtain rfl : progress = .resolved := done
          exact carries_makeRequestAsync (holds.grows (RejectRun.grows_withNode node _)) made
      · simpa [RejectRun.setTx] using carried
  · simpa [RejectRun.setTx] using carried
  · exact carried
  · rename_i precheckCode generated own nodeId staged
    unfold RejectRun.judge
    split
    · simpa [RejectRun.setTx] using carried
    · simpa [RejectRun.setTx] using carried
    · simpa [RejectRun.setTx] using carried
    · split <;> simpa [RejectRun.setTx] using carried
  · exact carried
  · exact carried
  · exact carried
  · exact carried

/-- A call that has resolved stays so. -/
theorem resolved_part {part : RejectPart} (resolved : Resolved (run.part part)) (event : RejectEvent) :
    Resolved ((run.step proto client event).part part) := by
  refine RejectRun.step_parts (P := fun other signing => other = part → Resolved signing) ?_ ?_ ?_ ?_ ?_
    event part rfl
  · exact fun _ _ index moment holds same => resolved_step (.settle index moment) (holds same)
  · exact fun _ _ key signer holds same => resolved_step (.call key signer) (holds same)
  · exact fun _ _ _ _ holds same => holds same
  · exact fun _ _ _ _ _ _ _ _ holds same => holds same
  · rintro _ rfl
    exact resolved

theorem begun_step (begun : ∀ part, flow.Begun (run.part part)) (event : RejectEvent) (part : RejectPart) :
    flow.Begun ((run.step proto client event).part part) := by
  refine RejectRun.step_parts (P := fun _ => flow.Begun) ?_ ?_ ?_ ?_ begun event part
  · exact fun _ _ index moment begun => begun.settle index moment
  · exact fun _ _ key signer begun => begun.call key signer
  · exact fun _ _ _ grows begun => begun.grows grows
  · exact fun _ _ _ _ _ _ _ ran begun => begun_prepare ran begun

theorem Sound.step (sound : Sound proto flow run) {event : RejectEvent} (timely : Timely run event) :
    Sound proto flow (run.step proto client event) where
  begun := by
    rcases sound.begun with ⟨e, rejected⟩ | begun
    · exact .inl ⟨e, (rejected_step rejected event).1⟩
    · exact .inr (begun_step begun event)
  carried := by
    rcases sound.begun with ⟨e, rejected⟩ | begun
    · rw [(rejected_step rejected event).2]
      exact sound.carried
    · exact carried_step timely begun sound.carried
  passed part later := by
    rcases passed_step timely later with before | done
    · exact resolved_part (sound.passed part before) event
    · exact resolved_part done event

/-! ## The start -/

variable {filling : RejectPart → Filling}

/-- Whether the two transactions are frozen to be signed on demand. -/
def FreezesOnDemand (flow : RejectSigner) : Prop := ∃ client, flow.freezeWithClient = some client ∧ client.signOnDemand = true

/-- A transaction that is filled out has the flow's call, which has resolved when it is signed on demand. -/
theorem begun_fillOutTransaction {part : RejectPart} {picked : Except JsError (List AccountId)}
    {generated : Timestamp} {signing : Transaction.Signing}
    (filled : flow.fillOutTransaction proto picked generated (newTransaction filling part) = .ok signing) :
    flow.Begun signing ∧ (flow.FreezesOnDemand → Resolved signing) := by
  obtain ⟨tx, records, mode, rfl⟩ : ∃ tx : Transaction, tx.signerRecords = (∅, [], []) ∧
      (flow.FreezesOnDemand → tx.signOnDemand = true) ∧
      signing = Transaction.Signing.step ⟨tx, []⟩ (.call flow.publicKey flow.transactionSigner) := by
    rw [fillOutTransaction] at filled
    cases freezer : flow.freezeWithClient with
    | none =>
        simp only [freezer] at filled
        refine ⟨newTransaction filling part, rfl, ?_, (Except.ok.inj filled).symm⟩
        rintro ⟨client, some, _⟩
        cases freezer.symm.trans some
    | some client =>
        simp only [freezer] at filled
        rcases ran : (Transaction.freezeWith proto (some client) picked generated).run
          (newTransaction filling part) with ⟨e | _, tx⟩
        · rw [ran] at filled
          cases filled
        · rw [ran] at filled
          have kept : Method.Keeps (fun tx : Transaction => tx.signerRecords = (∅, [], []))
              (Transaction.freezeWith proto (some client) picked generated) :=
            Transaction.SurvivesFreezing.freezeWith (.of_untouched fun tx tx' same holds => by
              have records := congrArg (fun u => u.2.2) same
              exact records.trans holds) _ _ _
          have records := kept (newTransaction filling part) rfl
          rw [ran] at records
          refine ⟨tx, records, ?_, (Except.ok.inj filled).symm⟩
          rintro ⟨other, some, onDemand⟩
          obtain rfl := Option.some.inj (freezer.symm.trans some)
          rw [Transaction.freezeWith_of_none rfl] at ran
          rw [(Transaction.freezeBase_frame ran).2.2]
          exact onDemand
  simp only [Transaction.signerRecords, Prod.mk.injEq] at records
  obtain ⟨noKeys, noPublicKeys, noSigners⟩ := records
  suffices holds : flow.CallHolds (Transaction.Signing.start flow.publicKey flow.transactionSigner tx).1
      (Transaction.Signing.start flow.publicKey flow.transactionSigner tx).2 ∧ (tx.signOnDemand = true →
        (Transaction.Signing.start flow.publicKey flow.transactionSigner tx).2 = .resolved) from
    ⟨⟨_, [], rfl, holds.1⟩, fun onDemand => ⟨_, rfl, holds.2 (mode onDemand)⟩⟩
  cases frozen : tx.isFrozenOrOnDemand with
  | false =>
      have immediate : tx.signOnDemand ≠ true := by
        intro onDemand
        simp [Transaction.isFrozenOrOnDemand, onDemand] at frozen
      obtain ⟨e, unfrozen⟩ : ∃ e, Transaction.requireFrozen.run tx = (.error e, tx) := by
        simp [Transaction.requireFrozen, frozen]
      simp only [Transaction.Signing.start, unfrozen]
      exact ⟨trivial, fun onDemand => absurd onDemand immediate⟩
  | true =>
      have unknown : flow.publicKey.hex ∉ tx.signerPublicKeys := by simp [noKeys]
      simp only [Transaction.Signing.start, Transaction.run_requireFrozen frozen, unknown, if_false]
      cases onDemand : tx.signOnDemand with
      | true =>
          simp only [if_true]
          refine ⟨⟨?_, ?_⟩, by simp⟩
          · simp [Transaction.isFrozenOrOnDemand, Transaction.recordSigner, Transaction.noteSigner, onDemand]
          · rw [if_pos (by exact onDemand)]
            simp [Registered, Transaction.recordSigner, Transaction.noteSigner, noPublicKeys, noSigners]
      | false =>
          simp only [Bool.false_eq_true, if_false, false_implies, and_true]
          have grows : Grows tx (Transaction.lockIds (Transaction.noteSigner flow.publicKey tx)) :=
            .of_same rfl rfl (List.prefix_refl _) (List.prefix_refl _)
          exact callHolds_proceed (grows.frozen frozen) (grows.mode.trans onDemand)
            fun i before => absurd before (Nat.not_lt_zero i)

/-- The flow fails before it executes anything, or it has begun to sign both transactions. -/
theorem begun_start (proto : Proto) (flow : RejectSigner) (filling : RejectPart → Filling) :
    (∃ e, (flow.start proto filling).stage = .rejected e) ∨
      (flow.start proto filling).stage = .executing .tokenReject ∧
        ∀ part, flow.Begun ((flow.start proto filling).part part) ∧
          (flow.FreezesOnDemand → Resolved ((flow.start proto filling).part part)) := by
  unfold start
  split
  · rename_i first second firstFilled secondFilled
    refine .inr ⟨rfl, fun part => ?_⟩
    cases part with
    | tokenReject => exact begun_fillOutTransaction firstFilled
    | tokenDissociate => exact begun_fillOutTransaction secondFilled
  · exact .inl ⟨_, rfl⟩
  · exact .inl ⟨_, rfl⟩

theorem requests_start (proto : Proto) (flow : RejectSigner) (filling : RejectPart → Filling) :
    (flow.start proto filling).requests = [] := by
  unfold start
  split <;> rfl

theorem sound_start (proto : Proto) (flow : RejectSigner) (filling : RejectPart → Filling) :
    Sound proto flow (flow.start proto filling) := by
  have none := requests_start proto flow filling
  rcases begun_start proto flow filling with ⟨e, rejected⟩ | ⟨stage, begun⟩
  · refine ⟨.inl ⟨e, rejected⟩, by simp [none], ?_⟩
    rw [rejected]
    intro part member
    cases member
  · refine ⟨.inr fun part => (begun part).1, by simp [none], ?_⟩
    rw [stage]
    intro part member
    cases member

/-! ## Every request is signed -/

/-- What the flow promises in a state of its run. A request on demand that the signer refuses to sign makes
the execution fail, and the flow returns only when both of its own calls have resolved. -/
structure Kept (proto : Proto) (client : Client) (flow : RejectSigner) (run : RejectRun) : Prop where
  signed : ∀ request ∈ run.requests, flow.Carries proto request
  returned : run.stage = .returned → ∀ part, Resolved (run.part part)
  refuses : ∀ part node moment healthy e, run.stage = .attempting part → Resolved (run.part part) →
    (run.part part).tx.signOnDemand = true →
    flow.transactionSigner moment (proto.encodeBody ((RejectRun.withNode node (run.part part).tx).makeTransactionBody
      proto (RejectRun.withNode node (run.part part).tx).nodeAccountIds.current)) = .error e →
    (run.step proto client (.attempt node moment healthy)).stage = .rejected e

theorem signPairs_refused {tx : Transaction} (registered : flow.Registered tx) {bodyBytes : Bytes}
    {moment : Nat} {e : JsError} (refused : flow.transactionSigner moment bodyBytes = .error e) :
    Transaction.signPairs bodyBytes moment tx.publicKeys tx.transactionSigners = .error e := by
  obtain ⟨⟨keys, keysAre⟩, ⟨signers, signersAre⟩⟩ := registered
  rw [← keysAre, ← signersAre]
  simp only [List.cons_append, List.nil_append, Transaction.signPairs, List.head?_cons, Option.join_some, refused]

theorem makeRequestAsync_refused {tx : Transaction} (registered : flow.Registered tx)
    (onDemand : tx.signOnDemand = true) {moment : Nat} {e : JsError}
    (refused : flow.transactionSigner moment
      (proto.encodeBody (tx.makeTransactionBody proto tx.nodeAccountIds.current)) = .error e) :
    ∃ tx', (Transaction.makeRequestAsync proto moment).run tx = (.error e, tx') := by
  have pairs := signPairs_refused registered refused
  rw [Transaction.makeRequestAsync, Method.run_this_bind, if_pos onDemand, Transaction.buildTransactionAsync]
  have failed : (Transaction.signTransaction proto moment).run tx =
      (.error e, { tx with nodeAccountIds := tx.nodeAccountIds.advance }) := by
    rw [Transaction.signTransaction, Method.run_this_bind, Method.run_update_bind]
    refine Method.run_bind_error ?_
    rw [Transaction.makeSignedTransaction, pairs]
    rfl
  exact ⟨_, Method.run_bind_error failed⟩

theorem Sound.kept (sound : Sound proto flow run) : Kept proto client flow run where
  signed := sound.carried
  returned returned part := by
    refine sound.passed part ?_
    rw [returned]
    cases part <;> simp [RejectStage.passed]
  refuses part node moment healthy e staged resolved onDemand refused := by
    rcases sound.begun with ⟨e', rejected⟩ | begun
    · cases rejected.symm.trans staged
    · obtain ⟨call, head, done⟩ := resolved
      obtain ⟨progress, rest, calls, holds⟩ := begun part
      rw [calls, List.head?_cons, Option.mem_some_iff] at head
      subst head
      obtain rfl : progress = .resolved := done
      have grows := RejectRun.grows_withNode node (run.part part).tx
      have registered := (holds.grows grows).2
      rw [if_pos (grows.mode.trans onDemand)] at registered
      obtain ⟨tx', made⟩ := makeRequestAsync_refused registered (grows.mode.trans onDemand) refused
      unfold RejectRun.step
      rw [staged]
      simp only [RejectRun.attempt, made]

/-- Frozen to be signed on demand, the flow hands over every request in time. -/
theorem timely_of_freezesOnDemand (onDemand : flow.FreezesOnDemand) (filling : RejectPart → Filling)
    (events : List RejectEvent) :
    Guarded (RejectRun.step proto client) Timely (flow.start proto filling) events := by
  have ready : ∀ run event, ((∃ e, run.stage = .rejected e) ∨ ∀ part, Resolved (run.part part)) →
      Timely run event := by
    intro run event ready
    unfold Timely
    split
    · intro part staged
      rcases ready with ⟨e, rejected⟩ | resolved
      · cases rejected.symm.trans staged
      · exact resolved part
    · trivial
  have start : (∃ e, (flow.start proto filling).stage = .rejected e) ∨
      ∀ part, Resolved ((flow.start proto filling).part part) :=
    (begun_start proto flow filling).imp_right fun begun part => (begun.2 part).2 onDemand
  generalize flow.start proto filling = run at start
  induction events generalizing run with
  | nil => trivial
  | cons event rest inductionHypothesis =>
      refine ⟨ready run event start, inductionHypothesis _ ?_⟩
      rcases start with ⟨e, rejected⟩ | resolved
      · exact .inl ⟨e, (rejected_step rejected event).1⟩
      · exact .inr fun part => resolved_part (resolved part) event

/-- In every run in which requests are handed over only once the flow's call has resolved, they carry its
signature, and a flow that was frozen to be signed on demand has no other runs. -/
theorem every_request_is_signed (proto : Proto) (client : Client) (flow : RejectSigner)
    (filling : RejectPart → Filling) {events : List RejectEvent}
    (timely : Guarded (RejectRun.step proto client) Timely (flow.start proto filling) events ∨
      flow.FreezesOnDemand) {reached : List RejectEvent} (initial : reached <+: events) :
    Kept proto client flow (runAll (RejectRun.step proto client) (flow.start proto filling) reached) := by
  have guarded : Guarded (RejectRun.step proto client) Timely (flow.start proto filling) events := by
    rcases timely with timely | onDemand
    · exact timely
    · exact timely_of_freezesOnDemand onDemand filling events
  obtain ⟨rest, rfl⟩ := initial
  have sound := runAll_invariant (I := Sound proto flow) (fun _ _ sound timely => sound.step timely)
    (sound_start proto flow filling) guarded.initial
  exact sound.kept

section Samples

open Transaction (payingClient)
open Transaction.Signing (sampleSigner failingSigner)

/-- The holder of the tokens, who does not pay. -/
def holderKey : PublicKey := ⟨.ed25519, List.replicate 32 9, rfl⟩

def sampleFilling (_ : RejectPart) : Filling where
  message := .object .nil
  picked := .ok [.ofNum 3]
  generated := ⟨5, 0⟩

/-- A part is executed while only the operator has signed it. -/
def executeUnsigned (part : RejectPart) : List RejectEvent :=
  [.prepare (.ok [.ofNum 3]) (fun _ => .ok ()) ⟨5, 0⟩, .settle part 1 0, .resume, .attempt (.ofNum 3) 0 true]

/-- Then the holder's signer settles, and the node has its receipt. -/
def executeWhole (part : RejectPart) : List RejectEvent :=
  executeUnsigned part ++ [.settle part 0 1, .answer (some 0) ⟨5, 0⟩, .receipt (.ok ())]

def bothWhole : List RejectEvent := executeWhole .tokenReject ++ executeWhole .tokenDissociate

def runOf (flow : RejectSigner) (events : List RejectEvent) : RejectRun :=
  runAll (RejectRun.step prefixProto payingClient) (flow.start prefixProto sampleFilling) events

def onDemandFlow : RejectSigner := ⟨some { payingClient with signOnDemand := true }, holderKey, sampleSigner⟩

theorem signed_on_demand :
    (runOf onDemandFlow (executeUnsigned .tokenReject)).requests.length = 1 ∧
      Kept prefixProto payingClient onDemandFlow (runOf onDemandFlow (executeUnsigned .tokenReject)) :=
  ⟨by decide +kernel, every_request_is_signed prefixProto payingClient onDemandFlow sampleFilling
    (.inr ⟨_, rfl, rfl⟩) (List.prefix_refl _)⟩

/-- The keys whose signatures a request shows. -/
def shownKeys (request : ProtoTransaction) : List Bytes :=
  match prefixProto.decodeSigned request.signedTransactionBytes with
  | .ok signed => signed.sigPair.map SignaturePair.pubKeyPrefix
  | .error _ => []

theorem Carries.shown {flow : RejectSigner} {request : ProtoTransaction}
    (carries : flow.Carries prefixProto request) : flow.publicKey.toBytesRaw ∈ shownKeys request := by
  obtain ⟨signed, rfl, moment, signature, made, member⟩ := carries
  unfold shownKeys Proto.wrap
  rw [prefixProto_faithful.signed]
  exact List.mem_map_of_mem member

/-- A signer that settles after the request is gone, a signer that refuses, and a flow that was not frozen:
the node is sent what only the operator has signed, and the flow returns. -/
theorem request_without_the_signer :
    ¬ Kept prefixProto payingClient ⟨some payingClient, holderKey, sampleSigner⟩
        (runOf ⟨some payingClient, holderKey, sampleSigner⟩ (executeUnsigned .tokenReject)) ∧
      ∀ freezer ∈ [none, some payingClient],
        (runOf ⟨freezer, holderKey, failingSigner⟩ bothWhole).stage = .returned ∧
          (runOf ⟨freezer, holderKey, failingSigner⟩ bothWhole).requests.length = 2 ∧
          ∀ request ∈ (runOf ⟨freezer, holderKey, failingSigner⟩ bothWhole).requests,
            ¬ Carries prefixProto ⟨freezer, holderKey, failingSigner⟩ request := by
  refine ⟨fun kept => ?_, fun freezer among => ?_⟩
  · have shown := fun request member => (kept.signed request member).shown
    revert shown
    decide +kernel
  · have runs : (∀ request ∈ (runOf ⟨freezer, holderKey, failingSigner⟩ bothWhole).requests,
        holderKey.toBytesRaw ∉ shownKeys request) ∧
          (runOf ⟨freezer, holderKey, failingSigner⟩ bothWhole).requests.length = 2 ∧
          (runOf ⟨freezer, holderKey, failingSigner⟩ bothWhole).stage = .returned := by
      rcases List.mem_pair.mp among with rfl | rfl
      · exact ⟨by decide +kernel, by decide +kernel, rfl⟩
      · exact ⟨by decide +kernel, by decide +kernel, rfl⟩
    obtain ⟨unsigned, two, returned⟩ := runs
    exact ⟨returned, two, fun request member carries => unsigned request member carries.shown⟩

end Samples

end RejectSigner

end HederaSdk
