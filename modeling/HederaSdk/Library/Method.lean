import Mathlib.Logic.Function.Basic

/-!
# Methods of mutable objects

A method reads and writes the object it is called on and may throw. A throw
ends the method but keeps every assignment made before it, so the object is
returned beside the result and not inside it.

`Triple` gives such methods pre- and postconditions: one postcondition for a
normal return and one for a throw. `Keeps` is the case of one assertion that
survives both; `Throws` speaks of the errors alone. `Follows` compares two methods.
-/

namespace HederaSdk.Library

universe u

/-! ## Computations that may fail -/

section

variable {ε α β : Type u}

theorem except_bind_eq_ok {r : Except ε α} {f : α → Except ε β} {b : β} :
    (r >>= f) = .ok b ↔ ∃ a, r = .ok a ∧ f a = .ok b := by
  cases r with
  | error e => simp [bind, Except.bind]
  | ok a => simp [bind, Except.bind]

theorem except_map_eq_ok {r : Except ε α} {f : α → β} {b : β} :
    r.map f = .ok b ↔ ∃ a, r = .ok a ∧ f a = b := by
  cases r with
  | error e => simp [Except.map]
  | ok a => simp [Except.map]

theorem except_mapM_ok {f : α → Except ε β} {g : α → β} {items : List α}
    (reads : ∀ a ∈ items, f a = .ok (g a)) : items.mapM f = .ok (items.map g) := by
  induction items with
  | nil => rfl
  | cons a rest inductionHypothesis =>
      rw [List.mapM_cons, reads a List.mem_cons_self,
        inductionHypothesis fun b inRest => reads b (List.mem_cons_of_mem _ inRest)]
      rfl

/-- A loop of checks returns exactly when every check does. -/
theorem except_forM_eq_ok {check : α → Except ε PUnit} {items : List α} :
    items.forM check = .ok ⟨⟩ ↔ ∀ a ∈ items, check a = .ok ⟨⟩ := by
  induction items with
  | nil => simp [pure, Except.pure]
  | cons a rest inductionHypothesis =>
      rw [List.forall_mem_cons, ← inductionHypothesis]
      change Except.bind (check a) (fun _ => rest.forM check) = .ok ⟨⟩ ↔ _
      cases check a with
      | error e => simp [Except.bind]
      | ok _ => simp [Except.bind]

end

/-! ## Methods -/

/-- What a method returns or throws, beside the object it leaves behind. -/
def Method (ε σ α : Type u) : Type u := σ → Except ε α × σ

namespace Method

variable {ε σ α β : Type u}

def run (m : Method ε σ α) (s : σ) : Except ε α × σ := m s

def returning (a : α) : Method ε σ α := fun s => (.ok a, s)

def andThen (m : Method ε σ α) (f : α → Method ε σ β) : Method ε σ β := fun s =>
  match m s with
  | (.ok a, s') => f a s'
  | (.error e, s') => (.error e, s')

instance : Monad (Method ε σ) where
  pure := returning
  bind := andThen

def throwing (e : ε) : Method ε σ α := fun s => (.error e, s)

def this : Method ε σ σ := fun s => (.ok s, s)

def update (f : σ → σ) : Method ε σ PUnit := fun s => (.ok ⟨⟩, f s)

/-- Throw when a computation that touches no object failed. -/
def ofExcept : Except ε α → Method ε σ α
  | .ok a => returning a
  | .error e => throwing e

/-- Call a method of a part of the object. -/
def zoom {τ : Type u} (get : τ → σ) (set : σ → τ → τ) (m : Method ε σ α) : Method ε τ α := fun t =>
  ((m (get t)).1, set (m (get t)).2 t)

/-- Run a method for the elements of a list in order; a throw ends the loop. -/
def forEach (body : β → Method ε σ PUnit) : List β → Method ε σ PUnit
  | [] => pure ⟨⟩
  | b :: rest => do
      body b
      forEach body rest

@[simp] theorem run_pure (a : α) (s : σ) : (pure a : Method ε σ α).run s = (.ok a, s) := rfl

theorem run_bind (m : Method ε σ α) (f : α → Method ε σ β) (s : σ) :
    (m >>= f).run s =
      match m.run s with
      | (.ok a, s') => (f a).run s'
      | (.error e, s') => (.error e, s') := rfl

theorem bind_assoc {γ : Type u} (m : Method ε σ α) (f : α → Method ε σ β) (g : β → Method ε σ γ) :
    (m >>= f) >>= g = m >>= fun a => f a >>= g := by
  funext s
  change ((m >>= f) >>= g).run s = (m >>= fun a => f a >>= g).run s
  simp only [run_bind]
  rcases m.run s with ⟨_ | a, s'⟩ <;> rfl

theorem run_of_ok {m : Method ε σ α} {s : σ} {a : α} (returned : (m.run s).1 = .ok a) :
    m.run s = (.ok a, (m.run s).2) := Prod.ext returned rfl

theorem run_bind_ok {m : Method ε σ α} {f : α → Method ε σ β} {s s' : σ} {a : α}
    (first : m.run s = (.ok a, s')) : (m >>= f).run s = (f a).run s' := by
  simp only [run_bind, first]

theorem run_bind_error {m : Method ε σ α} {f : α → Method ε σ β} {s s' : σ} {e : ε}
    (first : m.run s = (.error e, s')) : (m >>= f).run s = (.error e, s') := by
  simp only [run_bind, first]

/-- A composed method returns exactly when both parts do. -/
theorem run_bind_eq_ok {m : Method ε σ α} {f : α → Method ε σ β} {s s'' : σ} {b : β} :
    (m >>= f).run s = (.ok b, s'') ↔
      ∃ a s', m.run s = (.ok a, s') ∧ (f a).run s' = (.ok b, s'') := by
  rw [run_bind]
  rcases m.run s with ⟨_ | a, s'⟩
  · simp
  · constructor
    · exact fun second => ⟨a, s', rfl, second⟩
    · rintro ⟨_, _, same, second⟩
      cases same
      exact second

/-- A part that changes nothing leaves the object as the part before it did. -/
theorem run_bind_snd (m : Method ε σ α) {f : α → Method ε σ β} (s : σ)
    (reads : ∀ a s, ((f a).run s).2 = s) : ((m >>= f).run s).2 = (m.run s).2 := by
  rw [run_bind]
  rcases m.run s with ⟨_ | a, s'⟩
  · rfl
  · exact reads a s'

@[simp] theorem run_throwing (e : ε) (s : σ) :
    (throwing e : Method ε σ α).run s = (.error e, s) := rfl

@[simp] theorem run_this (s : σ) : (this : Method ε σ σ).run s = (.ok s, s) := rfl

@[simp] theorem run_update (f : σ → σ) (s : σ) :
    (update f : Method ε σ PUnit).run s = (.ok ⟨⟩, f s) := rfl

@[simp] theorem run_ofExcept_ok (a : α) (s : σ) :
    (ofExcept (.ok a) : Method ε σ α).run s = (.ok a, s) := rfl

@[simp] theorem run_ofExcept_error (e : ε) (s : σ) :
    (ofExcept (.error e) : Method ε σ α).run s = (.error e, s) := rfl

@[simp] theorem run_this_bind (f : σ → Method ε σ β) (s : σ) :
    (this >>= f).run s = (f s).run s := rfl

@[simp] theorem run_update_bind (g : σ → σ) (f : PUnit → Method ε σ β) (s : σ) :
    (update g >>= f).run s = (f ⟨⟩).run (g s) := rfl

@[simp] theorem run_pure_bind (a : α) (f : α → Method ε σ β) (s : σ) :
    (pure a >>= f).run s = (f a).run s := rfl

@[simp] theorem run_throwing_bind (e : ε) (f : α → Method ε σ β) (s : σ) :
    (throwing e >>= f).run s = (.error e, s) := rfl

theorem run_zoom {τ : Type u} (get : τ → σ) (set : σ → τ → τ) (m : Method ε σ α) (t : τ) :
    (zoom get set m).run t = ((m.run (get t)).1, set (m.run (get t)).2 t) := rfl

@[simp] theorem run_forEach_nil (body : β → Method ε σ PUnit) (s : σ) :
    (forEach body []).run s = (.ok ⟨⟩, s) := rfl

theorem forEach_cons (body : β → Method ε σ PUnit) (b : β) (rest : List β) :
    forEach body (b :: rest) = (body b >>= fun _ => forEach body rest) := rfl

/-- From a state with `P` the method returns with `Q` or throws with `E`. -/
def Triple (P : σ → Prop) (m : Method ε σ α) (Q : α → σ → Prop) (E : ε → σ → Prop) : Prop :=
  ∀ s, P s → match m.run s with
    | (.ok a, s') => Q a s'
    | (.error e, s') => E e s'

namespace Triple

variable {P : σ → Prop} {Q : α → σ → Prop} {E : ε → σ → Prop}

theorem of_ok {m : Method ε σ α} (h : Triple P m Q E) {s s' : σ} {a : α} (start : P s)
    (ran : m.run s = (.ok a, s')) : Q a s' := by
  have := h s start
  rwa [ran] at this

theorem of_error {m : Method ε σ α} (h : Triple P m Q E) {s s' : σ} {e : ε} (start : P s)
    (ran : m.run s = (.error e, s')) : E e s' := by
  have := h s start
  rwa [ran] at this

/-- The object has the assertion whether the method returned or threw. -/
theorem snd {m : Method ε σ α} {R : σ → Prop} (h : Triple P m (fun _ => R) fun _ => R) {s : σ}
    (start : P s) : R (m.run s).2 := by
  have after := h s start
  generalize m.run s = outcome at after ⊢
  rcases outcome with ⟨_ | a, s'⟩ <;> exact after

theorem pure (a : α) (h : ∀ s, P s → Q a s) : Triple P (Pure.pure a) Q E := h

theorem throwing (e : ε) (h : ∀ s, P s → E e s) : Triple P (Method.throwing e) Q E := h

theorem update {Q : PUnit → σ → Prop} (f : σ → σ) (h : ∀ s, P s → Q ⟨⟩ (f s)) :
    Triple P (Method.update f) Q E := h

theorem ofExcept (r : Except ε α) (ok : ∀ a s, r = .ok a → P s → Q a s)
    (error : ∀ e s, r = .error e → P s → E e s) : Triple P (Method.ofExcept r) Q E := by
  intro s start
  cases r with
  | ok a => exact ok a s rfl start
  | error e => exact error e s rfl start

theorem zoom {τ : Type u} {get : τ → σ} {set : σ → τ → τ} {m : Method ε σ α} {P : τ → Prop}
    {Q : α → τ → Prop} {E : ε → τ → Prop}
    (h : ∀ t, P t → Triple (· = get t) m (fun a s => Q a (set s t)) fun e s => E e (set s t)) :
    Triple P (Method.zoom get set m) Q E := by
  intro t start
  have part := h t start (get t) rfl
  rw [run_zoom]
  rcases ran : m.run (get t) with ⟨_ | a, s'⟩ <;> rw [ran] at part <;> exact part

theorem bind {m : Method ε σ α} {f : α → Method ε σ β} {M : α → σ → Prop} {Q : β → σ → Prop}
    (first : Triple P m M E) (second : ∀ a, Triple (M a) (f a) Q E) :
    Triple P (m >>= f) Q E := by
  intro s start
  have h := first s start
  rw [run_bind]
  rcases ran : m.run s with ⟨_ | a, s'⟩ <;> rw [ran] at h
  · exact h
  · exact second a s' h

/-- Reading the object fixes it for the rest of the method. -/
theorem this {f : σ → Method ε σ β} {Q : β → σ → Prop}
    (h : ∀ t, P t → Triple (· = t) (f t) Q E) : Triple P (Method.this >>= f) Q E :=
  fun s start => h s start s rfl

theorem weaken {P' : σ → Prop} {Q' : α → σ → Prop} {E' : ε → σ → Prop} {m : Method ε σ α}
    (h : Triple P m Q E) (pre : ∀ s, P' s → P s) (post : ∀ a s, Q a s → Q' a s)
    (thrown : ∀ e s, E e s → E' e s) : Triple P' m Q' E' := by
  intro s start
  have := h s (pre s start)
  rcases ran : m.run s with ⟨_ | a, s'⟩
  · rw [ran] at this
    exact thrown _ _ this
  · rw [ran] at this
    exact post _ _ this

/-- Loop rule: an assertion about what remains is re-established by the body. -/
theorem forEach {body : β → Method ε σ PUnit} (I : List β → σ → Prop)
    (step : ∀ b rest, Triple (I (b :: rest)) (body b) (fun _ => I rest) E) (items : List β) :
    Triple (I items) (Method.forEach body items) (fun _ => I []) E := by
  induction items with
  | nil => exact pure _ fun _ h => h
  | cons b rest inductionHypothesis => exact bind (step b rest) fun _ => inductionHypothesis

end Triple

/-- An assertion about the object that survives the method, thrown or not. -/
def Keeps (I : σ → Prop) (m : Method ε σ α) : Prop := ∀ s, I s → I (m.run s).2

namespace Keeps

variable {I : σ → Prop}

theorem pure (a : α) : Keeps I (Pure.pure a : Method ε σ α) := fun _ h => h

theorem throwing (e : ε) : Keeps I (Method.throwing e : Method ε σ α) := fun _ h => h

theorem this : Keeps I (Method.this : Method ε σ σ) := fun _ h => h

theorem update {f : σ → σ} (h : ∀ s, I s → I (f s)) :
    Keeps I (Method.update f : Method ε σ PUnit) := h

theorem ofExcept (r : Except ε α) : Keeps I (Method.ofExcept r : Method ε σ α) := by
  intro s h
  cases r <;> exact h

theorem bind {m : Method ε σ α} {f : α → Method ε σ β} (first : Keeps I m)
    (second : ∀ a, Keeps I (f a)) : Keeps I (m >>= f) := by
  intro s start
  have h := first s start
  rw [run_bind]
  rcases ran : m.run s with ⟨_ | a, s'⟩ <;> rw [ran] at h
  · exact h
  · exact second a s' h

theorem ite {c : Prop} [Decidable c] {m₁ m₂ : Method ε σ α} (h₁ : Keeps I m₁) (h₂ : Keeps I m₂) :
    Keeps I (if c then m₁ else m₂) := by
  split <;> assumption

theorem forEach_mem {body : β → Method ε σ PUnit} {items : List β}
    (h : ∀ b ∈ items, Keeps I (body b)) : Keeps I (Method.forEach body items) := by
  induction items with
  | nil => exact pure _
  | cons b rest inductionHypothesis =>
      exact bind (h b List.mem_cons_self) fun _ =>
        inductionHypothesis fun b inRest => h b (List.mem_cons_of_mem _ inRest)

theorem forEach {body : β → Method ε σ PUnit} (h : ∀ b, Keeps I (body b)) (items : List β) :
    Keeps I (Method.forEach body items) :=
  forEach_mem fun b _ => h b

theorem triple {m : Method ε σ α} (keeps : Keeps I m) : Triple I m (fun _ => I) fun _ => I := by
  intro s start
  have after := keeps s start
  rcases ran : m.run s with ⟨_ | a, s'⟩
  · rwa [ran] at after
  · rwa [ran] at after

end Keeps

/-- Seen through `view`, one method does what another one does. -/
def Follows {τ : Type u} (view : σ → τ) (m : Method ε σ α) (m' : Method ε τ α) : Prop :=
  ∀ s, m'.run (view s) = ((m.run s).1, view (m.run s).2)

namespace Follows

variable {τ : Type u} {view : σ → τ}

theorem pure (a : α) : Follows view (Pure.pure a : Method ε σ α) (Pure.pure a) := fun _ => rfl

theorem throwing (e : ε) : Follows view (Method.throwing e : Method ε σ α) (Method.throwing e) :=
  fun _ => rfl

theorem ofExcept (r : Except ε α) : Follows view (Method.ofExcept r) (Method.ofExcept r) := by
  cases r with
  | ok a => exact pure a
  | error e => exact throwing e

theorem update {f : σ → σ} {f' : τ → τ} (same : ∀ s, f' (view s) = view (f s)) :
    Follows view (Method.update f : Method ε σ PUnit) (Method.update f') :=
  fun s => congrArg (Prod.mk _) (same s)

theorem bind {m : Method ε σ α} {m' : Method ε τ α} {f : α → Method ε σ β} {f' : α → Method ε τ β}
    (first : Follows view m m') (second : ∀ a, Follows view (f a) (f' a)) :
    Follows view (m >>= f) (m' >>= f') := by
  intro s
  rw [run_bind, run_bind, first s]
  rcases m.run s with ⟨_ | a, s'⟩
  · rfl
  · exact second a s'

theorem this {f : σ → Method ε σ β} {f' : τ → Method ε τ β}
    (same : ∀ s, Follows view (f s) (f' (view s))) :
    Follows view (Method.this >>= f) (Method.this >>= f') := fun s => same s s

theorem ite {c : Prop} [Decidable c] {m₁ m₂ : Method ε σ α} {m₁' m₂' : Method ε τ α}
    (h₁ : Follows view m₁ m₁') (h₂ : Follows view m₂ m₂') :
    Follows view (if c then m₁ else m₂) (if c then m₁' else m₂') := by
  split <;> assumption

theorem zoom {σ' τ' : Type u} {view' : σ' → τ'} {get : σ → σ'} {set : σ' → σ → σ} {get' : τ → τ'}
    {set' : τ' → τ → τ} (gets : ∀ s, get' (view s) = view' (get s))
    (sets : ∀ s part, set' (view' part) (view s) = view (set part s)) {m : Method ε σ' α}
    {m' : Method ε τ' α} (part : Follows view' m m') :
    Follows view (Method.zoom get set m) (Method.zoom get' set' m') := by
  intro s
  rw [run_zoom, run_zoom, gets s, part (get s), sets]

theorem forEach {body : β → Method ε σ PUnit} {body' : β → Method ε τ PUnit}
    (h : ∀ b, Follows view (body b) (body' b)) (items : List β) :
    Follows view (Method.forEach body items) (Method.forEach body' items) := by
  induction items with
  | nil => exact pure _
  | cons b rest inductionHypothesis => exact bind (h b) fun _ => inductionHypothesis

end Follows

/-- Whatever the method throws is of a kind. -/
def Throws (E : ε → Prop) (m : Method ε σ α) : Prop := ∀ s e s', m.run s = (.error e, s') → E e

namespace Throws

variable {E : ε → Prop}

theorem pure (a : α) : Throws E (Pure.pure a : Method ε σ α) := fun _ _ _ ran => by cases ran

theorem throwing {e : ε} (kind : E e) : Throws E (Method.throwing e : Method ε σ α) :=
  fun _ _ _ ran => by
    cases ran
    exact kind

theorem this : Throws E (Method.this : Method ε σ σ) := fun _ _ _ ran => by cases ran

theorem update (f : σ → σ) : Throws E (Method.update f : Method ε σ PUnit) := fun _ _ _ ran => by
  cases ran

theorem ofExcept {r : Except ε α} (kind : ∀ e, r = .error e → E e) :
    Throws E (Method.ofExcept r : Method ε σ α) := by
  intro s e s' ran
  cases r with
  | ok a => cases ran
  | error e' =>
      cases ran
      exact kind e rfl

theorem bind {m : Method ε σ α} {f : α → Method ε σ β} (first : Throws E m)
    (second : ∀ a, Throws E (f a)) : Throws E (m >>= f) := by
  intro s e s'' ran
  rw [run_bind] at ran
  rcases one : m.run s with ⟨e' | a, s'⟩ <;> rw [one] at ran
  · cases ran
    exact first s e s'' one
  · exact second a s' e s'' ran

theorem ite {c : Prop} [Decidable c] {m₁ m₂ : Method ε σ α} (h₁ : Throws E m₁) (h₂ : Throws E m₂) :
    Throws E (if c then m₁ else m₂) := by
  split <;> assumption

theorem forEach {body : β → Method ε σ PUnit} (h : ∀ b, Throws E (body b)) (items : List β) :
    Throws E (Method.forEach body items) := by
  induction items with
  | nil => exact pure _
  | cons b rest inductionHypothesis => exact bind (h b) fun _ => inductionHypothesis

end Throws

end Method

end HederaSdk.Library
