import Mathlib.Data.List.Basic
import Mathlib.Tactic.Cases

/-! Machines that read symbols, fail or move on, and emit output on the way.
    A machine may be fed its input in pieces of any size. -/
namespace Machine

variable {σ τ ι α ω ε : Type*}

/-- A computation that fails or yields a result with some output. -/
abbrev Outcome (ε σ ω : Type*) := Except ε (σ × List ω)

def andThen (first : Outcome ε σ ω) (continuation : σ → Outcome ε τ ω) : Outcome ε τ ω :=
  match first with
  | .error e => .error e
  | .ok (next, out) =>
    match continuation next with
    | .error e => .error e
    | .ok (last, rest) => .ok (last, out ++ rest)

@[simp] theorem andThen_error (e : ε) (continuation : σ → Outcome ε τ ω) :
    andThen (.error e) continuation = .error e := rfl

@[simp] theorem andThen_silent (state : σ) (continuation : σ → Outcome ε τ ω) :
    andThen (.ok (state, [])) continuation = continuation state := by
  rcases h : continuation state with e | ⟨last, rest⟩ <;> simp [andThen, h]

theorem andThen_ok {first : Outcome ε σ ω} {continuation : σ → Outcome ε τ ω} {next : σ} {last : τ}
    {out rest : List ω} (left : first = .ok (next, out)) (right : continuation next = .ok (last, rest)) :
    andThen first continuation = .ok (last, out ++ rest) := by
  simp only [andThen, left, right]

theorem andThen_cases {first : Outcome ε σ ω} {continuation : σ → Outcome ε τ ω} {last : τ}
    {out : List ω} (h : andThen first continuation = .ok (last, out)) :
    ∃ next head rest, first = .ok (next, head) ∧ continuation next = .ok (last, rest) ∧
      out = head ++ rest := by
  rcases first with e | ⟨next, head⟩
  · cases h
  · rcases hc : continuation next with e | ⟨final, rest⟩
    · simp [andThen, hc] at h
    · rw [andThen_ok rfl hc] at h
      cases h
      exact ⟨next, head, rest, rfl, hc, rfl⟩

theorem andThen_assoc (first : Outcome ε σ ω) (second : σ → Outcome ε τ ω)
    (third : τ → Outcome ε α ω) :
    andThen (andThen first second) third = andThen first fun state => andThen (second state) third := by
  rcases first with e | ⟨next, out⟩
  · rfl
  · rcases h : second next with e | ⟨last, rest⟩
    · simp [andThen, h]
    · rcases h' : third last with e | ⟨final, more⟩ <;> simp [andThen, h, h']

/-- Reading one symbol either fails or leads to a new state with some output. -/
abbrev Transition (ε σ ι ω : Type*) := σ → ι → Outcome ε σ ω

def run (step : Transition ε σ ι ω) : Transition ε σ (List ι) ω
  | state, [] => .ok (state, [])
  | state, symbol :: symbols => andThen (step state symbol) fun next => run step next symbols

@[simp] theorem run_nil (step : Transition ε σ ι ω) (state : σ) : run step state [] = .ok (state, []) :=
  rfl

theorem run_cons (step : Transition ε σ ι ω) (state : σ) (symbol : ι) (symbols : List ι) :
    run step state (symbol :: symbols) =
      andThen (step state symbol) fun next => run step next symbols := rfl

theorem run_singleton (step : Transition ε σ ι ω) (state : σ) (symbol : ι) :
    run step state [symbol] = step state symbol := by
  rw [run_cons]
  rcases step state symbol with e | ⟨next, out⟩ <;> simp [andThen]

theorem run_append (step : Transition ε σ ι ω) (state : σ) (left right : List ι) :
    run step state (left ++ right) = andThen (run step state left) fun next => run step next right := by
  induction left generalizing state with
  | nil => simp
  | cons symbol left ih =>
    rw [List.cons_append, run_cons, run_cons, andThen_assoc]
    congr 1
    funext next
    exact ih next

/-- How the input is cut into successive calls makes no difference. -/
theorem run_flatten (step : Transition ε σ ι ω) (state : σ) (pieces : List (List ι)) :
    run (run step) state pieces = run step state pieces.flatten := by
  induction pieces generalizing state with
  | nil => rfl
  | cons piece pieces ih =>
    rw [List.flatten_cons, run_append, run_cons]
    congr 1
    funext next
    exact ih next

theorem run_ok_cons {step : Transition ε σ ι ω} {state next last : σ} {symbol : ι} {symbols : List ι}
    {out rest : List ω} (first : step state symbol = .ok (next, out))
    (others : run step next symbols = .ok (last, rest)) :
    run step state (symbol :: symbols) = .ok (last, out ++ rest) := andThen_ok first others

theorem run_ok_append {step : Transition ε σ ι ω} {state next last : σ} {left right : List ι}
    {out rest : List ω} (first : run step state left = .ok (next, out))
    (second : run step next right = .ok (last, rest)) :
    run step state (left ++ right) = .ok (last, out ++ rest) := by
  rw [run_append]
  exact andThen_ok first second

theorem run_invariant {step : Transition ε σ ι ω} (invariant : σ → Prop)
    (kept : ∀ state symbol next out, invariant state → step state symbol = .ok (next, out) → invariant next)
    {state last : σ} {symbols : List ι} {out : List ω} (initial : invariant state)
    (h : run step state symbols = .ok (last, out)) : invariant last := by
  induction symbols generalizing state out with
  | nil => cases h; exact initial
  | cons symbol symbols ih =>
    obtain ⟨next, head, rest, hs, hr, -⟩ := andThen_cases h
    exact ih (kept _ _ _ _ initial hs) hr

/-- A machine that reads encoded symbols simulates one that reads the symbols themselves, when every
    encoding alone is a step of the other machine. -/
theorem run_simulation {concrete : Transition ε σ ι ω} {abstract : Transition ε τ α ω}
    (encode : α → List ι) (related : σ → τ → Prop) (admissible : α → Prop)
    (simulates : ∀ state spec symbol, related state spec → admissible symbol →
      ∃ next specNext out, run concrete state (encode symbol) = .ok (next, out) ∧
        abstract spec symbol = .ok (specNext, out) ∧ related next specNext)
    {state : σ} {spec : τ} (initial : related state spec) (symbols : List α)
    (admitted : ∀ symbol ∈ symbols, admissible symbol) :
    ∃ last specLast out, run concrete state (symbols.flatMap encode) = .ok (last, out) ∧
      run abstract spec symbols = .ok (specLast, out) ∧ related last specLast := by
  induction symbols generalizing state spec with
  | nil => exact ⟨state, spec, [], rfl, rfl, initial⟩
  | cons symbol symbols ih =>
    obtain ⟨next, specNext, out, hc, ha, hn⟩ := simulates state spec symbol initial (admitted _ (by simp))
    obtain ⟨last, specLast, rest, hcs, has, hl⟩ := ih hn fun s member => admitted s (by simp [member])
    exact ⟨last, specLast, out ++ rest, by rw [List.flatMap_cons]; exact run_ok_append hc hcs,
      run_ok_cons ha has, hl⟩

section Trace

/-- Every step of the run meets a condition on its state and symbol. -/
def Always (step : Transition ε σ ι ω) (meets : σ → ι → Prop) : σ → List ι → Prop
  | _, [] => True
  | state, symbol :: symbols =>
    meets state symbol ∧ ∀ next out, step state symbol = .ok (next, out) → Always step meets next symbols

/-- What a label says of each step of the run, in order. -/
def collect (step : Transition ε σ ι ω) (label : σ → ι → List α) : σ → List ι → List α
  | _, [] => []
  | state, symbol :: symbols =>
    label state symbol ++ match step state symbol with
      | .error _ => []
      | .ok (next, _) => collect step label next symbols

theorem always_cons_ok {step : Transition ε σ ι ω} {meets : σ → ι → Prop} {state next : σ} {symbol : ι}
    {symbols : List ι} {out : List ω} (first : step state symbol = .ok (next, out)) :
    Always step meets state (symbol :: symbols) ↔ meets state symbol ∧ Always step meets next symbols := by
  rw [Always, first]
  constructor
  · rintro ⟨met, later⟩
    exact ⟨met, later next out rfl⟩
  · rintro ⟨met, later⟩
    refine ⟨met, ?_⟩
    rintro _ _ ⟨⟩
    exact later

/-- What every step that meets its condition keeps of the state and of all output before. -/
theorem run_collects {step : Transition ε σ ι ω} {meets : σ → ι → Prop} (invariant : σ → List ω → Prop)
    (kept : ∀ state symbol next early out, invariant state early → meets state symbol →
      step state symbol = .ok (next, out) → invariant next (early ++ out))
    {state last : σ} {symbols : List ι} {early out : List ω} (always : Always step meets state symbols)
    (initial : invariant state early) (h : run step state symbols = .ok (last, out)) : invariant last (early ++ out) := by
  induction symbols generalizing state early out with
  | nil =>
    cases h
    rw [List.append_nil]
    exact initial
  | cons symbol symbols ih =>
    obtain ⟨next, head, rest, first, others, rfl⟩ := andThen_cases h
    obtain ⟨met, later⟩ := (always_cons_ok first).mp always
    rw [← List.append_assoc]
    exact ih later (kept _ _ _ _ _ initial met first) others

/-- A run that fails does so at a step that meets its condition. -/
theorem run_fails {step : Transition ε σ ι ω} {meets : σ → ι → Prop} (invariant : σ → Prop)
    (kept : ∀ state symbol next out, invariant state → meets state symbol → step state symbol = .ok (next, out) →
      invariant next)
    {state : σ} {symbols : List ι} {failure : ε} (always : Always step meets state symbols) (initial : invariant state)
    (h : run step state symbols = .error failure) :
    ∃ stopped symbol, invariant stopped ∧ meets stopped symbol ∧ step stopped symbol = .error failure := by
  induction symbols generalizing state with
  | nil => cases h
  | cons symbol symbols ih =>
    rcases first : step state symbol with reason | ⟨next, out⟩
    · rw [run_cons, first] at h
      cases h
      exact ⟨state, symbol, initial, always.1, first⟩
    · obtain ⟨met, later⟩ := (always_cons_ok first).mp always
      rw [run_cons, first] at h
      rcases others : run step next symbols with reason | ⟨last, rest⟩
      · simp only [andThen, others] at h
        cases h
        exact ih later (kept _ _ _ _ initial met first) others
      · simp only [andThen, others] at h
        cases h

theorem collect_cons_ok {step : Transition ε σ ι ω} {label : σ → ι → List α} {state next : σ} {symbol : ι}
    {symbols : List ι} {out : List ω} (first : step state symbol = .ok (next, out)) :
    collect step label state (symbol :: symbols) = label state symbol ++ collect step label next symbols := by
  rw [collect, first]

theorem collect_cons_error {step : Transition ε σ ι ω} {label : σ → ι → List α} {state : σ} {symbol : ι}
    {symbols : List ι} {failure : ε} (first : step state symbol = .error failure) :
    collect step label state (symbol :: symbols) = label state symbol := by
  rw [collect, first, List.append_nil]

end Trace

end Machine
