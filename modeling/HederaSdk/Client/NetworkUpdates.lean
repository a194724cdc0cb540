import HederaSdk.Client.Ledger
import HederaSdk.Network.Operations

/-!
# Updates of the network

A timer of the client asks for the address book and sets a timer anew behind the answer. Between
the two the client can be closed or get another period; neither knows of the query that is on its
way, and a query that fails sets no timer.
-/

namespace HederaSdk

open Library Network

/-- A timer of the runtime. -/
structure Timer where
  handle : Nat
  delay : ℚ
  deriving DecidableEq

/-- The part of a client that updates its network, with the timers that are set and the callbacks
that wait for an address book, by the handles of their timers. -/
structure UpdatingClient where
  network : Network
  networkUpdatePeriod : ℚ := 24 * 60 * 60 * 1000
  isShutdown : Bool := false
  timer : Option Nat := none
  timers : List Timer := []
  inFlight : List Nat := []
  handles : Nat := 0

/-- What happens to it, in any order and at any distance. -/
inductive UpdateEvent where
  | fires (handle : Nat)
  | answered (handle : Nat) (answer : Except JsError NodeAddressBook) (draws : Nat → Nat) (now : ℚ)
  | setNetworkUpdatePeriod (networkUpdatePeriod : ℚ)
  | close

namespace UpdatingClient

/-- `_scheduleNetworkUpdate` -/
def scheduleNetworkUpdate (client : UpdatingClient) : UpdatingClient :=
  { client with
    timer := some client.handles
    timers := client.timers ++ [⟨client.handles, client.networkUpdatePeriod⟩]
    handles := client.handles + 1 }

/-- `clearTimeout(this._timer)` -/
def clearTimer (client : UpdatingClient) : UpdatingClient :=
  { client with timers := client.timers.filter fun timer => some timer.handle ≠ client.timer }

/-- The client, constructed with its updates on. -/
def create (network : Network) : UpdatingClient := scheduleNetworkUpdate { network }

def setNetworkUpdatePeriod (networkUpdatePeriod : ℚ) (client : UpdatingClient) : UpdatingClient :=
  scheduleNetworkUpdate { client.clearTimer with networkUpdatePeriod }

def close (client : UpdatingClient) : UpdatingClient :=
  clearTimer { client with network := client.network.close, isShutdown := true }

def setNetworkFromAddressBook (addressBook : NodeAddressBook) (draws : Nat → Nat) (now : ℚ)
    (network : Network) : Except JsError Unit × Network :=
  let port := if network.transportSecurity then 50212 else 50211
  (NetworkCall.method ⟨.setNetwork (addressBook.toNetwork port), draws, now⟩).run network

/-- The callback of the timer behind its query: an error ends it. -/
def update (answer : Except JsError NodeAddressBook) (draws : Nat → Nat) (now : ℚ)
    (client : UpdatingClient) : UpdatingClient :=
  match answer with
  | .error _ => client
  | .ok addressBook =>
      match setNetworkFromAddressBook addressBook draws now client.network with
      | (.error _, network) => { client with network }
      | (.ok _, network) =>
          if client.isShutdown then { client with network } else scheduleNetworkUpdate { client with network }

def step (client : UpdatingClient) : UpdateEvent → UpdatingClient
  | .fires handle =>
      if handle ∈ client.timers.map Timer.handle then
        { client with
          timers := client.timers.filter fun timer => timer.handle ≠ handle
          inFlight := client.inFlight ++ [handle] }
      else client
  | .answered handle answer draws now =>
      if handle ∈ client.inFlight then
        update answer draws now { client with inFlight := client.inFlight.filter fun other => other ≠ handle }
      else client
  | .setNetworkUpdatePeriod networkUpdatePeriod => client.setNetworkUpdatePeriod networkUpdatePeriod
  | .close => client.close

/-- The event calls `setNetworkFromAddressBook`. -/
def setsNetwork (client : UpdatingClient) : UpdateEvent → Bool
  | .answered handle (.ok _) _ _ => handle ∈ client.inFlight
  | _ => false

/-- Until the client is closed, there is one update, on a timer or in flight. -/
def HasOneUpdate (client : UpdatingClient) : Prop :=
  client.isShutdown = false → client.timers.length + client.inFlight.length = 1

/-- An event leaves one update until the client is closed, and sets no network afterwards. -/
structure Upholds (client : UpdatingClient) (event : UpdateEvent) : Prop where
  one : HasOneUpdate (client.step event)
  quiet : client.isShutdown = true → client.setsNetwork event = false

/-- The query brings an address book, and the network can be set to it. -/
def Succeeds (answer : Except JsError NodeAddressBook) (draws : Nat → Nat) (now : ℚ) (network : Network) : Prop :=
  ∃ addressBook, answer = .ok addressBook ∧ (setNetworkFromAddressBook addressBook draws now network).1 = .ok ()

/-- The period stays while a query is in flight. Until the client is closed queries bring an address
book that the network can be set to; afterwards they bring none. -/
def IsOrderly (client : UpdatingClient) : UpdateEvent → Prop
  | .answered handle answer draws now => handle ∈ client.inFlight →
      if client.isShutdown then ∃ e, answer = .error e else Succeeds answer draws now client.network
  | .setNetworkUpdatePeriod _ => client.isShutdown = false → client.inFlight = []
  | _ => True

/-- Until the client is closed, either the timer of the client is set or a query is in flight. -/
def IsChain (client : UpdatingClient) : Prop :=
  client.isShutdown = false →
    (∃ timer, client.timers = [timer] ∧ client.timer = some timer.handle ∧ client.inFlight = []) ∨
      client.timers = [] ∧ ∃ handle, client.inFlight = [handle]

variable {client : UpdatingClient}

theorem IsChain.hasOneUpdate (chain : client.IsChain) : client.HasOneUpdate := by
  intro running
  rcases chain running with ⟨timer, timers, -, inFlight⟩ | ⟨timers, handle, inFlight⟩
  · rw [timers, inFlight]
    rfl
  · rw [timers, inFlight]
    rfl

theorem isChain_create (network : Network) : (create network).IsChain :=
  fun _ => .inl ⟨⟨0, 24 * 60 * 60 * 1000⟩, rfl, rfl, rfl⟩

section

variable {answer : Except JsError NodeAddressBook} {draws : Nat → Nat} {now : ℚ}

/-- An update that succeeds sets the next timer. -/
theorem update_of_succeeds (running : client.isShutdown = false)
    (succeeds : Succeeds answer draws now client.network) :
    ∃ network, update answer draws now client = scheduleNetworkUpdate { client with network } := by
  obtain ⟨addressBook, rfl, set⟩ := succeeds
  rcases ran : setNetworkFromAddressBook addressBook draws now client.network with ⟨outcome, network⟩
  rw [ran] at set
  obtain rfl : outcome = .ok () := set
  refine ⟨network, ?_⟩
  simp only [update, ran, running]
  rfl

/-- Any other update, and any behind the closing, leaves all but the network. -/
theorem update_of_not (ended : client.isShutdown = true ∨ ¬ Succeeds answer draws now client.network) :
    ∃ network, update answer draws now client = { client with network } := by
  cases answer with
  | error e => exact ⟨client.network, rfl⟩
  | ok addressBook =>
      rcases ran : setNetworkFromAddressBook addressBook draws now client.network with ⟨e | _, network⟩
      · exact ⟨network, by simp only [update, ran]⟩
      · have shut : client.isShutdown = true :=
          ended.resolve_right (not_not_intro ⟨addressBook, rfl, by rw [ran]⟩)
        exact ⟨network, by simp only [update, ran, shut, if_true]⟩

end

/-- A client that is closed stays so. -/
theorem isShutdown_step (shut : client.isShutdown = true) (event : UpdateEvent) :
    (client.step event).isShutdown = true := by
  cases event with
  | fires handle =>
      rw [step]
      split <;> exact shut
  | answered handle answer draws now =>
      rw [step]
      split
      · obtain ⟨network, updated⟩ := @update_of_not
          { client with inFlight := client.inFlight.filter fun other => other ≠ handle } answer draws now
          (.inl shut)
        rw [updated]
        exact shut
      · exact shut
  | setNetworkUpdatePeriod networkUpdatePeriod => exact shut
  | close => rfl

/-- The chain goes on through every event but an update that fails and a change of the period while
a query is in flight. -/
theorem isChain_step (chain : client.IsChain) {event : UpdateEvent} (orderly : client.IsOrderly event) :
    (client.step event).IsChain := by
  cases shut : client.isShutdown with
  | true =>
      intro running
      cases (isShutdown_step shut event).symm.trans running
  | false =>
      cases event with
      | fires handle =>
          rw [step]
          split
          · rename_i set
            intro _
            rcases chain shut with ⟨timer, timers, -, inFlight⟩ | ⟨timers, -⟩
            · rw [timers] at set
              obtain rfl := List.mem_singleton.mp set
              exact .inr ⟨by simp [timers], timer.handle, by rw [inFlight]; rfl⟩
            · rw [timers] at set
              cases set
          · exact chain
      | answered handle answer draws now =>
          rw [step]
          split
          · rename_i waiting
            have succeeds := orderly waiting
            rw [shut, if_neg (by decide)] at succeeds
            rcases chain shut with ⟨timer, -, -, inFlight⟩ | ⟨timers, other, inFlight⟩
            · rw [inFlight] at waiting
              cases waiting
            · rw [inFlight] at waiting
              obtain rfl := List.mem_singleton.mp waiting
              obtain ⟨network, updated⟩ := @update_of_succeeds
                { client with inFlight := client.inFlight.filter fun other => other ≠ handle }
                answer draws now shut succeeds
              intro _
              refine .inl ⟨⟨client.handles, client.networkUpdatePeriod⟩, ?_⟩
              rw [updated]
              simp [scheduleNetworkUpdate, timers, inFlight]
          · exact chain
      | setNetworkUpdatePeriod networkUpdatePeriod =>
          intro _
          rcases chain shut with ⟨timer, timers, isTimer, inFlight⟩ | ⟨-, handle, inFlight⟩
          · refine .inl ⟨⟨client.handles, networkUpdatePeriod⟩, ?_, rfl, inFlight⟩
            simp [step, setNetworkUpdatePeriod, scheduleNetworkUpdate, clearTimer, timers, isTimer]
          · rw [orderly shut] at inFlight
            cases inFlight
      | close =>
          intro running
          cases running

/-- While the chain goes on, the orderly events are those that keep it and set nothing too late. -/
theorem upholds_iff (chain : client.IsChain) (event : UpdateEvent) :
    client.Upholds event ↔ client.IsOrderly event := by
  constructor
  · intro upholds
    cases event with
    | fires handle => trivial
    | close => trivial
    | answered handle answer draws now =>
        intro waiting
        cases shut : client.isShutdown with
        | true =>
            rw [if_pos rfl]
            have quiet := upholds.quiet shut
            cases answer with
            | error e => exact ⟨e, rfl⟩
            | ok addressBook => simp [setsNetwork, waiting] at quiet
        | false =>
            rw [if_neg (by decide)]
            by_contra fails
            obtain ⟨network, updated⟩ := @update_of_not
              { client with inFlight := client.inFlight.filter fun other => other ≠ handle } answer draws now
              (.inr fails)
            have one := upholds.one
            rw [step, if_pos waiting, updated] at one
            rcases chain shut with ⟨timer, -, -, inFlight⟩ | ⟨timers, other, inFlight⟩
            · rw [inFlight] at waiting
              cases waiting
            · rw [inFlight] at waiting
              obtain rfl := List.mem_singleton.mp waiting
              have none := one shut
              simp [timers, inFlight] at none
    | setNetworkUpdatePeriod networkUpdatePeriod =>
        intro running
        rcases chain running with ⟨timer, -, -, inFlight⟩ | ⟨timers, handle, inFlight⟩
        · exact inFlight
        · have two := upholds.one running
          simp [step, setNetworkUpdatePeriod, scheduleNetworkUpdate, clearTimer, timers, inFlight] at two
  · intro orderly
    refine ⟨(isChain_step chain orderly).hasOneUpdate, fun shut => ?_⟩
    cases event with
    | answered handle answer draws now =>
        cases answer with
        | error e => rfl
        | ok addressBook =>
            simp only [setsNetwork, decide_eq_false_iff_not]
            intro waiting
            have none := orderly waiting
            rw [shut, if_pos rfl] at none
            obtain ⟨e, same⟩ := none
            cases same
    | fires handle => rfl
    | setNetworkUpdatePeriod networkUpdatePeriod => rfl
    | close => rfl

/-- There is one update from the construction to the closing and none behind it, exactly when the
events are orderly. -/
theorem updates_iff (network : Network) (events : List UpdateEvent) :
    (create network).HasOneUpdate ∧ Guarded step Upholds (create network) events ↔
      Guarded step IsOrderly (create network) events := by
  have same : Guarded step Upholds (create network) events ↔ Guarded step IsOrderly (create network) events := by
    apply guarded_congr_along (I := IsChain)
    · intro client event chain upholds
      exact isChain_step chain ((upholds_iff chain event).mp upholds)
    · exact fun client event chain => upholds_iff chain event
    · exact isChain_create network
  rw [same, and_iff_right (isChain_create network).hasOneUpdate]

/-- Nothing is set and nothing is in flight any more. -/
structure IsQuiet (client : UpdatingClient) : Prop where
  shut : client.isShutdown = true
  timers : client.timers = []
  inFlight : client.inFlight = []

/-- Closing a client while its timer is set leaves nothing. -/
theorem isQuiet_close (chain : client.IsChain) (running : client.isShutdown = false)
    (waiting : client.inFlight = []) : client.close.IsQuiet := by
  rcases chain running with ⟨timer, timers, isTimer, inFlight⟩ | ⟨-, handle, inFlight⟩
  · exact ⟨rfl, by simp [close, clearTimer, timers, isTimer], inFlight⟩
  · rw [waiting] at inFlight
    cases inFlight

theorem isQuiet_step (quiet : client.IsQuiet) {event : UpdateEvent}
    (period : ∀ networkUpdatePeriod, event ≠ .setNetworkUpdatePeriod networkUpdatePeriod) :
    (client.step event).IsQuiet := by
  cases event with
  | fires handle =>
      rw [step, if_neg (by simp [quiet.timers])]
      exact quiet
  | answered handle answer draws now =>
      rw [step, if_neg (by simp [quiet.inFlight])]
      exact quiet
  | setNetworkUpdatePeriod networkUpdatePeriod => exact absurd rfl (period networkUpdatePeriod)
  | close =>
      refine ⟨rfl, ?_, quiet.inFlight⟩
      rw [step, close, clearTimer, quiet.timers]
      rfl

/-- Behind it everything is orderly, unless the period is changed. -/
theorem orderly_of_isQuiet {events : List UpdateEvent} (quiet : client.IsQuiet)
    (periods : ∀ networkUpdatePeriod, .setNetworkUpdatePeriod networkUpdatePeriod ∉ events) :
    Guarded step IsOrderly client events := by
  induction events generalizing client with
  | nil => trivial
  | cons event rest inductionHypothesis =>
      have other : ∀ networkUpdatePeriod, event ≠ .setNetworkUpdatePeriod networkUpdatePeriod := by
        rintro networkUpdatePeriod rfl
        exact periods networkUpdatePeriod (List.mem_cons_self ..)
      refine ⟨?_, inductionHypothesis (isQuiet_step quiet other) fun networkUpdatePeriod member =>
        periods networkUpdatePeriod (List.mem_cons_of_mem _ member)⟩
      cases event with
      | answered handle answer draws now =>
          intro waiting
          rw [quiet.inFlight] at waiting
          cases waiting
      | setNetworkUpdatePeriod networkUpdatePeriod => exact absurd rfl (other networkUpdatePeriod)
      | fires handle => trivial
      | close => trivial

section Samples

def sampleUpdates : UpdatingClient := create (Network.create 0)

/-- A query that fails ends the updates, one during which the period is changed makes them two, and
one during which the client is closed sets its network. -/
theorem updates_end_double_and_outlive :
    ¬ Guarded step Upholds sampleUpdates [.fires 0, .answered 0 (.error (.rejected "timeout")) id 0] ∧
      ¬ Guarded step Upholds sampleUpdates [.fires 0, .setNetworkUpdatePeriod 1000] ∧
      ¬ Guarded step Upholds sampleUpdates [.fires 0, .close, .answered 0 (.ok []) id 0] := by
  refine ⟨fun holds => ?_, fun holds => ?_, fun holds => ?_⟩
  · have one := holds.2.1.one rfl
    exact absurd one (by decide +kernel)
  · have one := holds.2.1.one rfl
    exact absurd one (by decide +kernel)
  · have quiet := holds.2.2.1.quiet rfl
    exact absurd quiet (by decide +kernel)

end Samples

end UpdatingClient

end HederaSdk
