import HederaSdk.Execution.Attempts

/-!
# How the attempts walk through the nodes

An attempt that is followed by another has moved the cursor of the node ids by
one, and by two when making the request had moved it already.
-/

namespace HederaSdk.ExecutableClass

open Library Network RunMethod

variable {σ Prep Req Resp Out : Type} {cls : ExecutableClass σ Prep Req Resp Out}
  {startTime : ℚ} {delay : Executable → ℚ} {input : Attempt Resp} {run run' : Run σ Req}

/-- The network once a request has been made for the node. -/
def checkedNetwork (input : Attempt Resp) (run : Run σ Req) (r : NodeRef) : Network :=
  runAll step ((run.network.readmitNodes input.now).updateNode r Node.getChannel) input.whileMaking

/-- The node that is looked up for the id. -/
def LooksUp (input : Attempt Resp) (run : Run σ Req) (id : AccountId) (r : NodeRef) : Prop :=
  (Network.getNode (some id.toString) input.draws input.now).run run.network =
    (.ok (some r), run.network.readmitNodes input.now)

theorem choice_of_current {id id' : AccountId} {r : NodeRef} {chosen : Run σ Req}
    (current : (cls.base run.request).nodeAccountIds.current = some id)
    (choice : (cls.chooseNode input).run run = (.ok (id', r), chosen)) :
    id' = id ∧ LooksUp input run id r ∧
      chosen = { run with network := run.network.readmitNodes input.now } := by
  rw [run_chooseNode_of_current current] at choice
  have network := run_getNode_snd (some id.toString) input.draws input.now run.network
  rw [LooksUp]
  generalize (Network.getNode (some id.toString) input.draws input.now).run run.network = found
    at choice network ⊢
  rcases found with ⟨e | _ | r, net⟩ <;> cases choice
  simp only at network
  exact ⟨rfl, by rw [network], by rw [network]⟩

/-- A prepared request is for the node under the cursor. -/
structure At (cls : ExecutableClass σ Prep Req Resp Out) (input : Attempt Resp) (run : Run σ Req) (id : AccountId) (r : NodeRef) (request : Req)
    (made : Run σ Req) : Prop where
  lookedUp : LooksUp input run id r
  known : (cls.base run.request).isForeign id = false
  network : made.network = checkedNetwork input run r
  base : cls.base made.request = cls.cursorMoved (cls.base run.request)
  made : (cls.makeRequest input.moment input.generated).run run.request = (.ok request, made.request)

theorem Prepared.at {id id' : AccountId} {r : NodeRef} {request : Req} {chosen made : Run σ Req}
    (current : (cls.base run.request).nodeAccountIds.current = some id)
    (prepared : cls.Prepared startTime input run id' r request chosen made) :
    id' = id ∧ cls.At input run id r request made := by
  obtain ⟨rfl, lookedUp, rfl⟩ := choice_of_current current prepared.choice
  obtain ⟨making, ran⟩ := made_of_ok prepared.making
  exact ⟨rfl, lookedUp, prepared.known, making.network, making.base, ran⟩

/-- The base after an attempt at the id that is followed by another. -/
def nextBase (cls : ExecutableClass σ Prep Req Resp Out) (id : AccountId) (base : Executable) :
    Executable :=
  let base := if base.isForeign id then base else cls.cursorMoved base
  { base with nodeAccountIds := base.nodeAccountIds.advance }

theorem Attempted.base_again_of_current {id : AccountId}
    (current : (cls.base run.request).nodeAccountIds.current = some id)
    (attempt : cls.Attempted startTime delay input run (.ok .again) run') :
    cls.base run'.request = cls.nextBase id (cls.base run.request) := by
  cases attempt with
  | foreign choice unknown =>
      obtain ⟨rfl, _, rfl⟩ := choice_of_current current choice
      rw [base_moved, nextBase, if_pos unknown]
  | skipped prepared unhealthy more =>
      obtain ⟨rfl, here⟩ := prepared.at current
      rw [base_moved, here.base, nextBase, here.known, if_neg (by simp)]
  | sent prepared healthy judging =>
      obtain ⟨rfl, here⟩ := prepared.at current
      rw [(judged judging).base rfl, handed, base_moved, here.base, nextBase, here.known,
        if_neg (by simp)]

/-! ## The cursor -/

/-- The request has nodes and the cursor is within them. -/
def InList (base : Executable) : Prop := base.nodeAccountIds.index < base.nodeAccountIds.list.length

instance (base : Executable) : Decidable (InList base) := inferInstanceAs (Decidable (_ < _))

/-- The node id under the cursor. -/
def InList.node {base : Executable} (inList : InList base) : AccountId :=
  base.nodeAccountIds.list.get ⟨base.nodeAccountIds.index, inList⟩

theorem InList.node_mem {base : Executable} (inList : InList base) :
    inList.node ∈ base.nodeAccountIds.list := List.get_mem ..

theorem InList.current {base : Executable} (inList : InList base) :
    base.nodeAccountIds.current = some inList.node := List.getElem?_eq_getElem inList

theorem InList.advance {base : Executable} (inList : InList base) :
    InList { base with nodeAccountIds := base.nodeAccountIds.advance } :=
  base.nodeAccountIds.index_advance_lt fun empty => by simp [InList, empty] at inList

theorem InList.cursorMoved {base : Executable} (inList : InList base) :
    InList (cls.cursorMoved base) := by
  unfold ExecutableClass.cursorMoved
  split
  · exact inList.advance
  · exact inList

theorem InList.nextBase {base : Executable} (inList : InList base) (id : AccountId) :
    InList (cls.nextBase id base) := by
  unfold ExecutableClass.nextBase
  split
  · exact inList.advance
  · exact inList.cursorMoved.advance

@[simp] theorem list_cursorMoved (base : Executable) :
    (cls.cursorMoved base).nodeAccountIds.list = base.nodeAccountIds.list := by
  unfold ExecutableClass.cursorMoved
  split <;> rfl

@[simp] theorem list_nextBase (id : AccountId) (base : Executable) :
    (cls.nextBase id base).nodeAccountIds.list = base.nodeAccountIds.list := by
  unfold ExecutableClass.nextBase
  split
  · rfl
  · exact list_cursorMoved base

/-! ## The network along the attempts -/

theorem keyed_runAll {net : Network} (keyed : Keyed main net) (calls : List NetworkCall) :
    Keyed main (runAll step net calls) := runAll_invariant_all keyed_step calls keyed

theorem keyed_readmitNodes {net : Network} (keyed : Keyed main net) (now : ℚ) :
    Keyed main (net.readmitNodes now) := keyed.congr (sameFiling_readmitNodes _ now net)

theorem keyed_getChannel {net : Network} (keyed : Keyed main net) (r : NodeRef) :
    Keyed main (net.updateNode r Node.getChannel) :=
  keyed.congr (sameFiling_updateNode (f := Node.getChannel) (fun _ => rfl) r)

theorem Prepared.keyed {id : AccountId} {r : NodeRef} {request : Req} {chosen made : Run σ Req}
    (prepared : cls.Prepared startTime input run id r request chosen made)
    (keyed : Keyed main run.network) : Keyed main made.network := by
  rw [(made_of_ok prepared.making).1.network, (chose prepared.choice).network]
  exact keyed_runAll (keyed_getChannel (keyed_readmitNodes keyed _) _) _

theorem Attempted.keyed_again (attempt : cls.Attempted startTime delay input run (.ok .again) run')
    (keyed : Keyed main run.network) : Keyed main run'.network := by
  cases attempt with
  | foreign choice unknown =>
      rw [moved, (chose choice).network]
      exact keyed_readmitNodes keyed _
  | skipped prepared unhealthy more => exact prepared.keyed keyed
  | sent prepared healthy judging =>
      obtain ⟨calls, network⟩ := (judged judging).network
      rw [network, handed]
      exact keyed_runAll (keyed_runAll (prepared.keyed keyed) _) _

/-- A node that was filed under a key still has it when its health is checked. -/
theorem keyAt_checkedNetwork {key : String} {r : NodeRef} (h : KeyAt main r key run.network)
    (r' : NodeRef) : KeyAt main r key (checkedNetwork input run r') :=
  runAll_invariant_all keyAt_step _
    ((keyAt_readmitNodes _ h).updateNode (f := Node.getChannel) (fun _ => rfl) r')

/-- The node of a filed id has the key of the id. -/
theorem At.keyOf_node {id : AccountId} {r : NodeRef} {request : Req} {made : Run σ Req}
    (here : cls.At input run id r request made) (keyed : Keyed main run.network)
    (filed : run.network.network.bucket id.toString ≠ []) :
    keyOf main made.network r = id.toString := by
  obtain ⟨r', inBucket, found⟩ := run_getNode_bucket filed input.draws input.now
  have lookedUp := here.lookedUp
  rw [LooksUp, found] at lookedUp
  cases lookedUp
  rw [here.network]
  exact (keyAt_checkedNetwork (keyed.keyAt inBucket) r).2

end HederaSdk.ExecutableClass
