import Mathlib.Data.List.Induction

/-! Runs of a machine whose steps may fail, and what holds in all of their states. -/
namespace Machine

variable {σ α ε : Type*} {step : σ → α → Except ε σ} {start state : σ} {inputs : List α}

def runAll (step : σ → α → Except ε σ) (start : σ) : List α → Except ε σ
  | [] => .ok start
  | input :: inputs =>
    match step start input with
    | .error failure => .error failure
    | .ok next => runAll step next inputs

/-- A property of every state that the run goes through. -/
def Throughout (step : σ → α → Except ε σ) (start : σ) (inputs : List α) (property : σ → Prop) : Prop :=
  ∀ before after state, inputs = before ++ after → runAll step start before = .ok state → property state

def checkAll (step : σ → α → Except ε σ) (check : σ → Bool) (start : σ) : List α → Bool
  | [] => check start
  | input :: inputs =>
    check start &&
      match step start input with
      | .error _ => true
      | .ok next => checkAll step check next inputs

/-- A condition on every input of the run and the state that it finds. -/
def EachStep (step : σ → α → Except ε σ) (start : σ) (inputs : List α) (condition : σ → α → Prop) : Prop :=
  ∀ before input after state, inputs = before ++ input :: after → runAll step start before = .ok state →
    condition state input

def checkEach (step : σ → α → Except ε σ) (check : σ → α → Bool) (start : σ) : List α → Bool
  | [] => true
  | input :: inputs =>
    check start input &&
      match step start input with
      | .error _ => true
      | .ok next => checkEach step check next inputs

theorem each_congr {first second : σ → α → Prop}
    (same : ∀ before input state, runAll step start before = .ok state → (first state input ↔ second state input)) :
    EachStep step start inputs first ↔ EachStep step start inputs second := by
  constructor
  · intro each before input after state split reached
    exact (same before input state reached).mp (each before input after state split reached)
  · intro each before input after state split reached
    exact (same before input state reached).mpr (each before input after state split reached)

theorem runAll_append (left right : List α) :
    runAll step start (left ++ right) =
      match runAll step start left with
      | .error failure => .error failure
      | .ok next => runAll step next right := by
  induction left generalizing start with
  | nil => rfl
  | cons input left ih =>
    rw [List.cons_append, runAll, runAll]
    cases step start input with
    | error failure => rfl
    | ok next => exact ih

theorem runAll_snoc {before : List α} {input : α} (reached : runAll step start before = .ok state) :
    runAll step start (before ++ [input]) = step state input := by
  rw [runAll_append, reached]
  show runAll step state [input] = _
  rw [runAll]
  cases step state input with
  | error failure => rfl
  | ok next => rfl

theorem runAll_last {before : List α} {input : α} (reached : runAll step start (before ++ [input]) = .ok state) :
    ∃ found, runAll step start before = .ok found ∧ step found input = .ok state := by
  cases middle : runAll step start before with
  | error failure =>
    rw [runAll_append, middle] at reached
    cases reached
  | ok found =>
    rw [runAll_snoc middle] at reached
    exact ⟨found, rfl, reached⟩

theorem runAll_first {input : α} {before : List α} (reached : runAll step start (input :: before) = .ok state) :
    ∃ next, step start input = .ok next ∧ runAll step next before = .ok state := by
  rw [runAll] at reached
  cases stepped : step start input with
  | error failure =>
    rw [stepped] at reached
    cases reached
  | ok next =>
    rw [stepped] at reached
    exact ⟨next, rfl, reached⟩

theorem runAll_middle {before after : List α} {input : α} {last : σ}
    (whole : runAll step start (before ++ input :: after) = .ok last) (reached : runAll step start before = .ok state) :
    ∃ next, step state input = .ok next := by
  rw [runAll_append, reached] at whole
  obtain ⟨next, stepped, -⟩ := runAll_first whole
  exact ⟨next, stepped⟩

theorem throughout_of_check {check : σ → Bool} (checked : checkAll step check start inputs = true) :
    Throughout step start inputs (check · = true) := by
  intro before
  induction before generalizing start inputs with
  | nil =>
    rintro after state - reached
    cases reached
    cases inputs with
    | nil => exact checked
    | cons input inputs => exact (Bool.and_eq_true_iff.mp checked).1
  | cons input before ih =>
    rintro after state rfl reached
    obtain ⟨next, stepped, others⟩ := runAll_first reached
    have later := (Bool.and_eq_true_iff.mp checked).2
    rw [stepped] at later
    exact ih later after state rfl others

theorem each_of_check {condition : σ → α → Prop} [∀ state input, Decidable (condition state input)]
    (checked : checkEach step (fun state input => decide (condition state input)) start inputs = true) :
    EachStep step start inputs condition := by
  intro before
  induction before generalizing start inputs with
  | nil =>
    rintro input after state rfl reached
    cases reached
    exact of_decide_eq_true (Bool.and_eq_true_iff.mp checked).1
  | cons first before ih =>
    rintro input after state rfl reached
    obtain ⟨next, stepped, others⟩ := runAll_first reached
    have later := (Bool.and_eq_true_iff.mp checked).2
    rw [stepped] at later
    exact ih later input after state rfl others

section Invariant

variable {invariant property : σ → Prop} {condition : σ → α → Prop}

/-- An invariant that may depend on the inputs so far, and that the steps of the run keep. -/
theorem run_history {history : List α → σ → Prop} (initial : history [] start)
    (keeps : ∀ before input after state next, inputs = before ++ input :: after → runAll step start before = .ok state →
      history before state → step state input = .ok next → history (before ++ [input]) next)
    (before after : List α) (split : inputs = before ++ after) (reached : runAll step start before = .ok state) :
    history before state := by
  induction before using List.reverseRecOn generalizing after state with
  | nil =>
    cases reached
    exact initial
  | append_singleton before input ih =>
    have earlier : inputs = before ++ input :: after := by rw [split, List.append_assoc, List.singleton_append]
    obtain ⟨found, middle, stepped⟩ := runAll_last reached
    exact keeps before input after found state earlier middle (ih _ earlier middle) stepped

/-- A run all of whose steps go on from the invariant, and to it, does not fail. -/
theorem runAll_total (initial : invariant start)
    (goes : ∀ before input after state, inputs = before ++ input :: after → runAll step start before = .ok state →
      invariant state → ∃ next, step state input = .ok next ∧ invariant next)
    (before after : List α) (split : inputs = before ++ after) :
    ∃ last, runAll step start before = .ok last ∧ invariant last := by
  induction before using List.reverseRecOn generalizing after with
  | nil => exact ⟨start, rfl, initial⟩
  | append_singleton before input ih =>
    have earlier : inputs = before ++ input :: after := by rw [split, List.append_assoc, List.singleton_append]
    obtain ⟨state, reached, kept⟩ := ih _ earlier
    obtain ⟨next, stepped, kept'⟩ := goes before input after state earlier reached kept
    exact ⟨next, (runAll_snoc reached).trans stepped, kept'⟩

/-- What every step that meets the condition keeps holds in all states of a run whose steps all meet it. -/
theorem throughout_of_each (initial : invariant start)
    (keeps : ∀ state input next, invariant state → condition state input → step state input = .ok next →
      invariant next)
    (each : EachStep step start inputs condition) : Throughout step start inputs invariant := by
  intro before after state split reached
  apply @run_history _ _ _ _ _ _ _ (fun _ => invariant) initial ?_ before after split reached
  intro before input after state next split reached kept stepped
  exact keeps state input next kept (each before input after state split reached) stepped

theorem each_imp {other : σ → α → Prop} (initial : invariant start)
    (keeps : ∀ state input next, invariant state → condition state input → step state input = .ok next →
      invariant next)
    (implies : ∀ state input, invariant state → condition state input → other state input)
    (each : EachStep step start inputs condition) : EachStep step start inputs other := by
  have kept := throughout_of_each initial keeps each
  intro before input after state split reached
  exact implies state input (kept before _ state split reached) (each before input after state split reached)

/-- Conditions that are the same where the invariant holds, which the steps that meet them keep, are the same for a run. -/
theorem each_iff {other : σ → α → Prop} (initial : invariant start)
    (keeps : ∀ state input next, invariant state → condition state input → step state input = .ok next →
      invariant next)
    (same : ∀ state input, invariant state → (condition state input ↔ other state input)) :
    EachStep step start inputs condition ↔ EachStep step start inputs other := by
  constructor
  · exact each_imp initial keeps fun state input kept => (same state input kept).mp
  · exact each_imp initial (fun state input next kept met => keeps state input next kept ((same state input kept).mpr met))
      fun state input kept => (same state input kept).mpr

/-- An invariant that a step keeps where it ends in a permitted state, when the states before that were permitted too. -/
theorem runAll_within {permitted : σ → Prop} (initial : invariant start)
    (keeps : ∀ state input next, invariant state → step state input = .ok next → permitted next → invariant next)
    (earlier : ∀ state input next, step state input = .ok next → permitted next → permitted state)
    (reached : runAll step start inputs = .ok state) (last : permitted state) : invariant state := by
  induction inputs using List.reverseRecOn generalizing state with
  | nil =>
    cases reached
    exact initial
  | append_singleton before input ih =>
    obtain ⟨found, middle, stepped⟩ := runAll_last reached
    exact keeps found input state (ih middle (earlier found input state stepped last)) stepped last

theorem runAll_related {related : σ → σ → Prop} (refl : ∀ state, related state state)
    (trans : ∀ first second third, related first second → related second third → related first third)
    (steps : ∀ state input next, step state input = .ok next → related state next)
    (reached : runAll step start inputs = .ok state) : related start state := by
  induction inputs using List.reverseRecOn generalizing state with
  | nil =>
    cases reached
    exact refl start
  | append_singleton before input ih =>
    obtain ⟨found, middle, stepped⟩ := runAll_last reached
    exact trans start found state (ih middle) (steps found input state stepped)

/-- Where a step that does not meet the condition breaks the property at once, the condition is exact. The invariant may
    depend on the inputs so far. -/
theorem throughout_iff_history {history : List α → σ → Prop} (initial : history [] start)
    (sound : ∀ before after state, inputs = before ++ after → history before state → property state)
    (keeps : ∀ before input after state next, inputs = before ++ input :: after → history before state →
      condition state input → step state input = .ok next → history (before ++ [input]) next)
    (breaks : ∀ before input after state, inputs = before ++ input :: after → history before state →
      ¬ condition state input → ∃ next, step state input = .ok next ∧ ¬ property next) :
    Throughout step start inputs property ↔ EachStep step start inputs condition := by
  constructor
  · intro throughout
    have kept : ∀ before after state, inputs = before ++ after → runAll step start before = .ok state →
        history before state := by
      intro before after state split reached
      apply run_history initial ?_ before after split reached
      intro before input after state next split reached kept stepped
      by_cases met : condition state input
      · exact keeps before input after state next split kept met stepped
      · obtain ⟨next', stepped', broken⟩ := breaks before input after state split kept met
        have split' : inputs = (before ++ [input]) ++ after := by rw [split, List.append_assoc, List.singleton_append]
        exact absurd (throughout _ after next' split' ((runAll_snoc reached).trans stepped')) broken
    intro before input after state split reached
    by_contra unmet
    obtain ⟨next, stepped, broken⟩ := breaks before input after state split (kept before _ state split reached) unmet
    have split' : inputs = (before ++ [input]) ++ after := by rw [split, List.append_assoc, List.singleton_append]
    exact broken (throughout _ after next split' ((runAll_snoc reached).trans stepped))
  · intro each before after state split reached
    apply sound before after state split
    apply run_history initial ?_ before after split reached
    intro before input after state next split reached kept stepped
    exact keeps before input after state next split kept (each before input after state split reached) stepped

theorem throughout_iff (initial : invariant start) (sound : ∀ state, invariant state → property state)
    (keeps : ∀ state input next, invariant state → condition state input → step state input = .ok next →
      invariant next)
    (breaks : ∀ state input, invariant state → ¬ condition state input →
      ∃ next, step state input = .ok next ∧ ¬ property next) :
    Throughout step start inputs property ↔ EachStep step start inputs condition := by
  apply @throughout_iff_history _ _ _ _ _ _ _ _ (fun _ => invariant) initial
  · exact fun _ _ state _ kept => sound state kept
  · exact fun _ input _ state next _ kept met stepped => keeps state input next kept met stepped
  · exact fun _ input _ state _ kept unmet => breaks state input kept unmet

/-- The same where every step meets a guard, and where a step may also fail in a way that is not allowed. -/
theorem throughout_and_each_iff {guard allowed : σ → α → Prop} (initial : invariant start)
    (sound : ∀ state, invariant state → property state)
    (keeps : ∀ state input next, invariant state → guard state input → condition state input → step state input = .ok next →
      invariant next)
    (allows : ∀ state input, invariant state → guard state input → condition state input → allowed state input)
    (breaks : ∀ state input, invariant state → guard state input → ¬ condition state input → allowed state input →
      ∃ next, step state input = .ok next ∧ ¬ property next)
    (guards : EachStep step start inputs guard) :
    (Throughout step start inputs property ∧ EachStep step start inputs allowed) ↔ EachStep step start inputs condition := by
  constructor
  · rintro ⟨throughout, each⟩
    have met : ∀ before input after state, inputs = before ++ input :: after → runAll step start before = .ok state →
        invariant state → condition state input := by
      intro before input after state split reached kept
      by_contra unmet
      obtain ⟨next, stepped, broken⟩ := breaks state input kept (guards before input after state split reached) unmet
        (each before input after state split reached)
      have split' : inputs = (before ++ [input]) ++ after := by rw [split, List.append_assoc, List.singleton_append]
      exact broken (throughout _ after next split' ((runAll_snoc reached).trans stepped))
    intro before input after state split reached
    apply met before input after state split reached
    apply @run_history _ _ _ _ _ _ _ (fun _ => invariant) initial ?_ before _ split reached
    intro before input after state next split reached kept stepped
    exact keeps state input next kept (guards before input after state split reached)
      (met before input after state split reached kept) stepped
  · intro each
    have kept : Throughout step start inputs invariant := by
      apply @throughout_of_each _ _ _ _ _ _ invariant (fun state input => guard state input ∧ condition state input) initial
      · exact fun state input next kept both stepped => keeps state input next kept both.1 both.2 stepped
      · exact fun before input after state split reached =>
          ⟨guards before input after state split reached, each before input after state split reached⟩
    constructor
    · exact fun before after state split reached => sound state (kept before after state split reached)
    · intro before input after state split reached
      exact allows state input (kept before _ state split reached) (guards before input after state split reached)
        (each before input after state split reached)

end Invariant

end Machine
