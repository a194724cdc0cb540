import Mathlib.Data.List.Basic

/-!
# Patterns

A regular expression is run from a place of a text and gives the places where it may end, the
preferred one first. A repetition takes as much as it can and no empty round. Places know how
many characters are in front of them, so that anchors can be looked up.
-/

namespace HederaSdk.Library

/-- A place in a text, with what the groups have captured in front of it. -/
structure Place where
  position : Nat
  rest : List Char
  captured : Nat → Option (List Char)

inductive Pattern where
  | empty
  | char (among : Char → Bool)
  | start
  | stop
  | seq (first second : Pattern)
  | either (first second : Pattern)
  | many (one : Pattern)
  | group (index : Nat) (inner : Pattern)

namespace Pattern

def literal (c : Char) : Pattern := char fun d => d == c

def between (low high : Char) : Pattern := char fun c => decide (low ≤ c) && decide (c ≤ high)

/-- `.`, which is no line terminator. -/
def any : Pattern := char fun c => decide (c.toNat ∉ [10, 13, 8232, 8233])

/-- One round or more. -/
def plus (one : Pattern) : Pattern := seq one (many one)

def optional (inner : Pattern) : Pattern := either inner empty

def times : Nat → Pattern → Pattern
  | 0, _ => empty
  | count + 1, one => seq one (times count one)

/-- One after the other. -/
def all : List Pattern → Pattern
  | [] => empty
  | first :: rest => seq first (all rest)

/-- Rounds of a repetition, as many as there are characters left at most. -/
def rounds (one : Place → List Place) : Nat → Place → List Place
  | 0, place => [place]
  | fuel + 1, place =>
      ((one place).filter fun next => decide (next.rest.length < place.rest.length)).flatMap
        (rounds one fuel) ++ [place]

def run : Pattern → Place → List Place
  | empty, place => [place]
  | char among, place =>
      match place.rest with
      | [] => []
      | c :: rest => if among c then [{ place with position := place.position + 1, rest }] else []
  | start, place => if place.position = 0 then [place] else []
  | stop, place => if place.rest = [] then [place] else []
  | seq first second, place => (run first place).flatMap (run second)
  | either first second, place => run first place ++ run second place
  | many one, place => rounds (run one) place.rest.length place
  | group index inner, place =>
      (run inner place).map fun next =>
        { next with
          captured := fun i =>
            if i = index then some (place.rest.take (next.position - place.position))
            else next.captured i }

/-- The first match from a place on. -/
def execFrom (pattern : Pattern) (position : Nat) (rest : List Char) : Option Place :=
  match pattern.run { position, rest, captured := fun _ => none } with
  | found :: _ => some found
  | [] =>
      match rest with
      | [] => none
      | _ :: rest => execFrom pattern (position + 1) rest

def exec (pattern : Pattern) (text : List Char) : Option Place := execFrom pattern 0 text

def test (pattern : Pattern) (text : List Char) : Bool := (exec pattern text).isSome

variable {place next : Place} {first second : Pattern} {among : Char → Bool}

@[simp] theorem run_empty : empty.run place = [place] := rfl

theorem run_start : start.run place = if place.position = 0 then [place] else [] := rfl

theorem mem_run_char : next ∈ (char among).run place ↔
    ∃ c rest, place.rest = c :: rest ∧ among c = true ∧
      next = { place with position := place.position + 1, rest } := by
  rw [run]
  cases place.rest with
  | nil => simp
  | cons c rest =>
      by_cases isAmong : among c = true
      · simp [isAmong]
      · simp [isAmong]

theorem mem_run_seq : next ∈ (seq first second).run place ↔
    ∃ between ∈ first.run place, next ∈ second.run between := List.mem_flatMap

theorem mem_run_either : next ∈ (either first second).run place ↔
    next ∈ first.run place ∨ next ∈ second.run place := List.mem_append

theorem exec_eq_none {pattern : Pattern} (none : ∀ place, pattern.run place = []) (text : List Char) :
    pattern.exec text = Option.none := by
  have from_ (position : Nat) (rest : List Char) : pattern.execFrom position rest = Option.none := by
    induction rest generalizing position with
    | nil => rw [execFrom, none]
    | cons c rest inductionHypothesis => rw [execFrom, none, inductionHypothesis]
  exact from_ 0 text

/-- Behind a character nothing starts. -/
theorem run_char_start (among : Char → Bool) (later : Pattern) (place : Place) :
    (seq (char among) (seq start later)).run place = [] := by
  refine List.eq_nil_iff_forall_not_mem.mpr fun next member => ?_
  obtain ⟨behind, passed, member⟩ := mem_run_seq.mp member
  obtain ⟨c, rest, _, _, rfl⟩ := mem_run_char.mp passed
  obtain ⟨_, starts, _⟩ := mem_run_seq.mp member
  rw [run_start, if_neg (Nat.succ_ne_zero _)] at starts
  cases starts

/-! ## What a pattern matches -/

/-- The pattern takes the text away, whatever is behind it. -/
def Matches (pattern : Pattern) (text : List Char) : Prop :=
  ∀ position rest captured, ∃ captured',
    { position := position + text.length, rest, captured := captured' } ∈
      pattern.run { position, rest := text ++ rest, captured }

theorem matches_empty : empty.Matches [] := fun _ _ captured => ⟨captured, List.mem_singleton_self _⟩

theorem matches_char {c : Char} (isAmong : among c = true) : (char among).Matches [c] :=
  fun _ rest captured => ⟨captured, mem_run_char.mpr ⟨c, rest, rfl, isAmong, rfl⟩⟩

theorem Matches.seq {text text' : List Char} (one : first.Matches text) (other : second.Matches text') :
    (seq first second).Matches (text ++ text') := by
  intro position rest captured
  obtain ⟨between, taken⟩ := one position (text' ++ rest) captured
  obtain ⟨captured', taken'⟩ := other (position + text.length) rest between
  refine ⟨captured', ?_⟩
  rw [List.append_assoc, List.length_append, ← Nat.add_assoc]
  exact mem_run_seq.mpr ⟨_, taken, taken'⟩

theorem Matches.left {text : List Char} (one : first.Matches text) : (either first second).Matches text := by
  intro position rest captured
  obtain ⟨captured', taken⟩ := one position rest captured
  exact ⟨captured', mem_run_either.mpr (.inl taken)⟩

theorem Matches.right {text : List Char} (other : second.Matches text) :
    (either first second).Matches text := by
  intro position rest captured
  obtain ⟨captured', taken⟩ := other position rest captured
  exact ⟨captured', mem_run_either.mpr (.inr taken)⟩

theorem Matches.group {index : Nat} {text : List Char} (one : first.Matches text) :
    (group index first).Matches text := by
  intro position rest captured
  obtain ⟨captured', taken⟩ := one position rest captured
  exact ⟨_, List.mem_map_of_mem taken⟩

theorem matches_many {text : List Char} (all : ∀ c ∈ text, among c = true) :
    (many (char among)).Matches text := by
  have round (fuel : Nat) : ∀ text : List Char, text.length ≤ fuel → (∀ c ∈ text, among c = true) →
      ∀ position rest captured, { position := position + text.length, rest, captured } ∈
        rounds (run (char among)) fuel { position, rest := text ++ rest, captured } := by
    induction fuel with
    | zero =>
        intro text short _ position rest captured
        obtain rfl := List.length_eq_zero_iff.mp (Nat.le_zero.mp short)
        exact List.mem_singleton_self _
    | succ fuel inductionHypothesis =>
        intro text short all position rest captured
        cases text with
        | nil => exact List.mem_append_right _ (List.mem_singleton_self _)
        | cons c text =>
            have later := inductionHypothesis text (Nat.le_of_succ_le_succ short)
              (fun d member => all d (List.mem_cons_of_mem _ member)) (position + 1) rest captured
            have taken : { position := position + 1, rest := text ++ rest, captured } ∈
                (char among).run { position, rest := c :: text ++ rest, captured } :=
              mem_run_char.mpr ⟨c, text ++ rest, rfl, all c List.mem_cons_self, rfl⟩
            rw [List.length_cons, Nat.add_comm text.length, ← Nat.add_assoc]
            apply List.mem_append_left
            exact List.mem_flatMap.mpr ⟨_, List.mem_filter.mpr ⟨taken, by simp⟩, later⟩
  intro position rest captured
  refine ⟨captured, round _ text ?_ all position rest captured⟩
  rw [List.length_append]
  exact Nat.le_add_right _ _

theorem matches_plus {text : List Char} (nonempty : text ≠ []) (all : ∀ c ∈ text, among c = true) :
    (plus (char among)).Matches text := by
  obtain ⟨c, rest, rfl⟩ := List.exists_cons_of_ne_nil nonempty
  exact (matches_char (all c List.mem_cons_self)).seq
    (matches_many fun d member => all d (List.mem_cons_of_mem _ member))

/-- A whole text is matched between the anchors. -/
theorem test_of_matches {text : List Char} (one : first.Matches text) :
    (all [start, first, stop]).test text = true := by
  obtain ⟨captured, taken⟩ := one 0 [] fun _ => none
  rw [List.append_nil] at taken
  have found : { position := 0 + text.length, rest := [], captured } ∈
      (all [start, first, stop]).run { position := 0, rest := text, captured := fun _ => none } := by
    refine mem_run_seq.mpr ⟨_, List.mem_singleton_self _, mem_run_seq.mpr ⟨_, taken, ?_⟩⟩
    exact mem_run_seq.mpr ⟨_, List.mem_singleton_self _, List.mem_singleton_self _⟩
  rw [test, exec]
  obtain ⟨head, tail, shape⟩ := List.exists_cons_of_ne_nil (List.ne_nil_of_mem found)
  rw [execFrom.eq_def, shape]
  rfl

/-- The characters that a pattern takes. -/
def allows : Pattern → Char → Bool
  | empty, _ => false
  | char among, c => among c
  | start, _ => false
  | stop, _ => false
  | seq first second, c => allows first c || allows second c
  | either first second, c => allows first c || allows second c
  | many one, c => allows one c
  | group _ inner, c => allows inner c

/-- A text in front is taken away. -/
def Takes (pattern : Pattern) (place next : Place) : Prop :=
  ∃ taken, place.rest = taken ++ next.rest ∧ ∀ c ∈ taken, pattern.allows c = true

theorem Takes.refl (pattern : Pattern) (place : Place) : pattern.Takes place place :=
  ⟨[], rfl, fun _ member => absurd member List.not_mem_nil⟩

theorem Takes.mono {pattern larger : Pattern} (more : ∀ c, pattern.allows c = true → larger.allows c = true)
    {place next : Place} : pattern.Takes place next → larger.Takes place next
  | ⟨taken, shape, allowed⟩ => ⟨taken, shape, fun c member => more c (allowed c member)⟩

theorem Takes.trans {pattern : Pattern} {place between next : Place} :
    pattern.Takes place between → pattern.Takes between next → pattern.Takes place next
  | ⟨taken, shape, allowed⟩, ⟨taken', shape', allowed'⟩ => by
      refine ⟨taken ++ taken', by rw [shape, shape', List.append_assoc], fun c member => ?_⟩
      rcases List.mem_append.mp member with inFirst | inSecond
      · exact allowed c inFirst
      · exact allowed' c inSecond

theorem takes_of_mem_run {pattern : Pattern} {place next : Place} (member : next ∈ pattern.run place) :
    pattern.Takes place next := by
  induction pattern generalizing place next with
  | empty =>
      rw [List.mem_singleton.mp member]
      exact Takes.refl _ _
  | char among =>
      obtain ⟨c, rest, shape, isAmong, rfl⟩ := mem_run_char.mp member
      refine ⟨[c], shape, fun d inside => ?_⟩
      rw [List.mem_singleton.mp inside]
      exact isAmong
  | start =>
      rw [run_start] at member
      split at member
      · rw [List.mem_singleton.mp member]
        exact Takes.refl _ _
      · cases member
  | stop =>
      rw [run] at member
      split at member
      · rw [List.mem_singleton.mp member]
        exact Takes.refl _ _
      · cases member
  | seq first second inFirst inSecond =>
      obtain ⟨between, one, other⟩ := mem_run_seq.mp member
      exact ((inFirst one).mono fun c => by simp +contextual [allows]).trans
        ((inSecond other).mono fun c => by simp +contextual [allows])
  | either first second inFirst inSecond =>
      rcases mem_run_either.mp member with one | other
      · exact (inFirst one).mono fun c => by simp +contextual [allows]
      · exact (inSecond other).mono fun c => by simp +contextual [allows]
  | many one inOne =>
      have round (fuel : Nat) : ∀ {place : Place}, next ∈ rounds (run one) fuel place →
          one.Takes place next := by
        induction fuel with
        | zero =>
            intro place member
            rw [List.mem_singleton.mp member]
            exact Takes.refl _ _
        | succ fuel inductionHypothesis =>
            intro place member
            rcases List.mem_append.mp member with more | last
            · obtain ⟨between, taken, later⟩ := List.mem_flatMap.mp more
              exact (inOne (List.mem_filter.mp taken).1).trans (inductionHypothesis later)
            · rw [List.mem_singleton.mp last]
              exact Takes.refl _ _
      exact round _ member
  | group index inner inInner =>
      obtain ⟨found, inside, rfl⟩ := List.mem_map.mp member
      obtain ⟨taken, shape, allowed⟩ := inInner inside
      exact ⟨taken, shape, allowed⟩

/-- Between the anchors every character is one that the pattern takes. -/
theorem allows_of_test {text : List Char} (found : (all [start, first, stop]).test text = true) {c : Char}
    (member : c ∈ text) : first.allows c = true := by
  have later (rest : List Char) : ∀ position, 0 < position →
      (all [start, first, stop]).execFrom position rest = none := by
    have none (position : Nat) (positive : 0 < position) (rest : List Char) :
        (all [start, first, stop]).run { position, rest, captured := fun _ => Option.none } = [] := by
      refine List.eq_nil_iff_forall_not_mem.mpr fun next member => ?_
      obtain ⟨_, starts, _⟩ := mem_run_seq.mp member
      rw [run_start, if_neg (Nat.ne_of_gt positive)] at starts
      cases starts
    induction rest with
    | nil =>
        intro position positive
        rw [execFrom, none position positive]
    | cons d rest inductionHypothesis =>
        intro position positive
        rw [execFrom, none position positive]
        exact inductionHypothesis (position + 1) (Nat.succ_pos _)
  have matched : ∃ next, next ∈ (all [start, first, stop]).run
      { position := 0, rest := text, captured := fun _ => none } := by
    rw [test, exec, execFrom.eq_def] at found
    split at found
    · rename_i next others shape
      exact ⟨next, by rw [shape]; exact List.mem_cons_self⟩
    · cases text with
      | nil => cases found
      | cons d rest =>
          simp only [later rest (0 + 1) (by decide)] at found
          cases found
  obtain ⟨next, member'⟩ := matched
  obtain ⟨begun, starts, inside⟩ := mem_run_seq.mp member'
  obtain ⟨between, one, ends⟩ := mem_run_seq.mp inside
  obtain ⟨finished, stops, _⟩ := mem_run_seq.mp ends
  rw [run_start, if_pos rfl, List.mem_singleton] at starts
  subst starts
  have empty : between.rest = [] := by
    rw [run] at stops
    split at stops
    · assumption
    · cases stops
  obtain ⟨taken, shape, allowed⟩ := takes_of_mem_run one
  rw [empty, List.append_nil] at shape
  exact allowed c (shape ▸ member)

end Pattern

end HederaSdk.Library
