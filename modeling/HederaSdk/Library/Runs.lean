import Mathlib.Data.List.Basic

/-!
# Runs of a deterministic step function

A run is the fold of a step over a list of inputs. `Guarded` says that every
input of the run met a condition in the state it was given in; an invariant
that guarded steps preserve holds in every state of a guarded run.
-/

namespace HederaSdk.Library

universe u v

variable {σ : Type u} {ι : Type v}

/-- The state after the inputs, taken in order. -/
def runAll (step : σ → ι → σ) (s : σ) (inputs : List ι) : σ := inputs.foldl step s

/-- Every input meets the guard in the state it finds. -/
def Guarded (step : σ → ι → σ) (guard : σ → ι → Prop) : σ → List ι → Prop
  | _, [] => True
  | s, i :: rest => guard s i ∧ Guarded step guard (step s i) rest

@[simp] theorem runAll_nil (step : σ → ι → σ) (s : σ) : runAll step s [] = s := rfl

@[simp] theorem runAll_cons (step : σ → ι → σ) (s : σ) (i : ι) (rest : List ι) :
    runAll step s (i :: rest) = runAll step (step s i) rest := rfl

@[simp] theorem guarded_nil (step : σ → ι → σ) (guard : σ → ι → Prop) (s : σ) :
    Guarded step guard s [] := trivial

@[simp] theorem guarded_cons (step : σ → ι → σ) (guard : σ → ι → Prop) (s : σ) (i : ι)
    (rest : List ι) :
    Guarded step guard s (i :: rest) ↔ guard s i ∧ Guarded step guard (step s i) rest := Iff.rfl

instance Guarded.decidable (step : σ → ι → σ) (guard : σ → ι → Prop)
    [∀ s i, Decidable (guard s i)] : ∀ s inputs, Decidable (Guarded step guard s inputs)
  | _, [] => inferInstanceAs (Decidable True)
  | s, i :: rest =>
      have := Guarded.decidable step guard (step s i) rest
      inferInstanceAs (Decidable (guard s i ∧ Guarded step guard (step s i) rest))

theorem runAll_append (step : σ → ι → σ) (s : σ) (first second : List ι) :
    runAll step s (first ++ second) = runAll step (runAll step s first) second :=
  List.foldl_append ..

theorem guarded_of_forall {step : σ → ι → σ} {guard : σ → ι → Prop} (met : ∀ s i, guard s i) (s : σ)
    (inputs : List ι) : Guarded step guard s inputs := by
  induction inputs generalizing s with
  | nil => exact trivial
  | cons i rest inductionHypothesis => exact ⟨met s i, inductionHypothesis (step s i)⟩

/-- The part of a guarded run up to any moment is guarded. -/
theorem Guarded.initial {step : σ → ι → σ} {guard : σ → ι → Prop} {s : σ} {first second : List ι}
    (h : Guarded step guard s (first ++ second)) : Guarded step guard s first := by
  induction first generalizing s with
  | nil => exact trivial
  | cons i rest inductionHypothesis => exact ⟨h.1, inductionHypothesis h.2⟩

theorem Guarded.later {step : σ → ι → σ} {guard : σ → ι → Prop} {s : σ} {first second : List ι}
    (h : Guarded step guard s (first ++ second)) : Guarded step guard (runAll step s first) second := by
  induction first generalizing s with
  | nil => exact h
  | cons i rest inductionHypothesis => exact inductionHypothesis h.2

theorem Guarded.and {step : σ → ι → σ} {guard guard' : σ → ι → Prop} {s : σ} {inputs : List ι}
    (first : Guarded step guard s inputs) (second : Guarded step guard' s inputs) :
    Guarded step (fun s i => guard s i ∧ guard' s i) s inputs := by
  induction inputs generalizing s with
  | nil => exact trivial
  | cons i rest inductionHypothesis =>
      exact ⟨⟨first.1, second.1⟩, inductionHypothesis first.2 second.2⟩

/-- Two guards that agree in the states of a run make the same runs guarded. -/
theorem guarded_congr_mem {step : σ → ι → σ} {guard guard' : σ → ι → Prop} {I : σ → Prop} {ok : ι → Prop}
    (keeps : ∀ s i, ok i → I s → I (step s i)) (agree : ∀ s i, ok i → I s → (guard s i ↔ guard' s i))
    {s : σ} {inputs : List ι} (good : ∀ i ∈ inputs, ok i) (start : I s) :
    Guarded step guard s inputs ↔ Guarded step guard' s inputs := by
  induction inputs generalizing s with
  | nil => exact Iff.rfl
  | cons i rest inductionHypothesis =>
      obtain ⟨now, later⟩ := List.forall_mem_cons.mp good
      exact and_congr (agree s i now start) (inductionHypothesis later (keeps s i now start))

theorem guarded_congr {step : σ → ι → σ} {guard guard' : σ → ι → Prop} {I : σ → Prop}
    (keeps : ∀ s i, I s → I (step s i)) (agree : ∀ s i, I s → (guard s i ↔ guard' s i)) {s : σ}
    {inputs : List ι} (start : I s) : Guarded step guard s inputs ↔ Guarded step guard' s inputs :=
  guarded_congr_mem (fun s i (_ : True) => keeps s i) (fun s i _ => agree s i) (fun _ _ => trivial) start

/-- The same when it is the guard that keeps the states in which the guards agree. -/
theorem guarded_congr_along {step : σ → ι → σ} {guard guard' : σ → ι → Prop} {I : σ → Prop}
    (keeps : ∀ s i, I s → guard s i → I (step s i)) (agree : ∀ s i, I s → (guard s i ↔ guard' s i))
    {s : σ} {inputs : List ι} (start : I s) :
    Guarded step guard s inputs ↔ Guarded step guard' s inputs := by
  induction inputs generalizing s with
  | nil => exact Iff.rfl
  | cons i rest inductionHypothesis =>
      have now := agree s i start
      constructor
      · rintro ⟨met, later⟩
        exact ⟨now.mp met, (inductionHypothesis (keeps s i start met)).mp later⟩
      · rintro ⟨met, later⟩
        exact ⟨now.mpr met, (inductionHypothesis (keeps s i start (now.mpr met))).mpr later⟩

theorem runAll_invariant {step : σ → ι → σ} {guard : σ → ι → Prop} {I : σ → Prop}
    (preserved : ∀ s i, I s → guard s i → I (step s i)) {s : σ} {inputs : List ι} (start : I s)
    (guarded : Guarded step guard s inputs) : I (runAll step s inputs) := by
  induction inputs generalizing s with
  | nil => exact start
  | cons i rest inductionHypothesis =>
      exact inductionHypothesis (preserved s i start guarded.1) guarded.2

theorem runAll_invariant_all {step : σ → ι → σ} {I : σ → Prop}
    (preserved : ∀ s i, I s → I (step s i)) {s : σ} (inputs : List ι) (start : I s) :
    I (runAll step s inputs) := by
  induction inputs generalizing s with
  | nil => exact start
  | cons i rest inductionHypothesis => exact inductionHypothesis (preserved s i start)

/-- When a step meets the guard exactly when it keeps what held before it, a run is guarded
exactly when that holds after every part of it from the start. The run is one of steps that
are `ok`, on which the invariant may rely. -/
theorem guarded_iff_holds {step : σ → ι → σ} {ok guard : σ → ι → Prop} {I Holds : σ → Prop}
    (keeps : ∀ s i, I s → I (step s i))
    (exact : ∀ s i, I s → ok s i → Holds s → (guard s i ↔ Holds (step s i))) {s : σ}
    {inputs : List ι} (start : I s) (holds : Holds s) (good : Guarded step ok s inputs) :
    Guarded step guard s inputs ↔ ∀ first, first <+: inputs → Holds (runAll step s first) := by
  induction inputs generalizing s with
  | nil =>
      refine ⟨fun _ first initial => ?_, fun _ => trivial⟩
      rw [List.prefix_nil.mp initial]
      exact holds
  | cons i rest inductionHypothesis =>
      have one := exact s i start good.1 holds
      constructor
      · rintro ⟨met, guarded⟩ first initial
        rcases List.prefix_cons_iff.mp initial with rfl | ⟨first, rfl, within⟩
        · exact holds
        · apply (inductionHypothesis (keeps s i start) (one.mp met) good.2).mp guarded
          exact within
      · intro all
        have now : Holds (step s i) := all [i] (List.cons_prefix_cons.mpr ⟨rfl, List.nil_prefix⟩)
        refine ⟨one.mpr now, ?_⟩
        apply (inductionHypothesis (keeps s i start) now good.2).mpr
        intro first within
        exact all (i :: first) (List.cons_prefix_cons.mpr ⟨rfl, within⟩)

end HederaSdk.Library
