import Mathlib.Order.WellFounded
import Mathlib.Tactic.Cases

/-! Loops that may run for ever, cut off after a number of turns. -/
namespace Machine

variable {σ ρ β : Type*}

/-- What the body of a loop leads to: another turn, or a result. -/
inductive Turn (σ ρ : Type*)
  | again (state : σ)
  | done (result : ρ)

/-- At most so many turns of a loop. -/
def loop (body : σ → Turn σ ρ) : Nat → σ → Option ρ
  | 0, _ => none
  | fuel + 1, state =>
    match body state with
    | .again next => loop body fuel next
    | .done result => some result

/-- The states in which the turns of a loop begin. -/
def turns (body : σ → Turn σ ρ) : Nat → σ → List σ
  | 0, _ => []
  | fuel + 1, state =>
    state :: match body state with
      | .again next => turns body fuel next
      | .done _ => []

section Results

variable {ε α : Type*}

theorem returned_map {run : Except ε α} {value : β} {f : α → β} (returned : run.map f = .ok value) :
    ∃ result, run = .ok result ∧ f result = value := by
  cases run with
  | error failure => cases returned
  | ok result => exact ⟨result, rfl, Except.ok.inj returned⟩

theorem returned_bind {run : Except ε α} {value : β} {f : α → Except ε β} (returned : run.bind f = .ok value) :
    ∃ result, run = .ok result ∧ f result = .ok value := by
  cases run with
  | error failure => cases returned
  | ok result => exact ⟨result, rfl, returned⟩

end Results

variable {body : σ → Turn σ ρ} {state : σ}

theorem loop_again {next : σ} (turn : body state = .again next) (fuel : Nat) :
    loop body (fuel + 1) state = loop body fuel next := by
  simp only [loop, turn]

theorem loop_done {result : ρ} (turn : body state = .done result) (fuel : Nat) :
    loop body (fuel + 1) state = some result := by
  simp only [loop, turn]

theorem loop_mono {result : ρ} {fuel more : Nat} (returned : loop body fuel state = some result) (enough : fuel ≤ more) :
    loop body more state = some result := by
  induction fuel generalizing state more with
  | zero => cases returned
  | succ fuel ih =>
    obtain ⟨more, rfl⟩ : ∃ rest, more = rest + 1 := ⟨more - 1, by omega⟩
    cases turn : body state with
    | again next =>
      rw [loop_again turn] at returned ⊢
      exact ih returned (by omega)
    | done value =>
      rw [loop_done turn] at returned ⊢
      exact returned

/-- The states that the turns of a loop lead to. -/
inductive Visits (body : σ → Turn σ ρ) (start : σ) : σ → Prop
  | start : Visits body start start
  | turn {state next : σ} (visits : Visits body start state) (again : body state = .again next) : Visits body start next

theorem visits_invariant {start : σ} (invariant : σ → Prop)
    (turns : ∀ state next, invariant state → body state = .again next → invariant next) (initial : invariant start)
    (visits : Visits body start state) : invariant state := by
  induction visits with
  | start => exact initial
  | turn _ again ih => exact turns _ _ ih again

/-- What every turn keeps until it ends in a result of this kind holds of the result of the loop. -/
theorem loop_result (invariant : σ → Prop) (post : ρ → Prop)
    (turns : ∀ state, invariant state →
      (∃ next, body state = .again next ∧ invariant next) ∨ ∃ result, body state = .done result ∧ post result)
    {fuel : Nat} {result : ρ} (initial : invariant state) (returned : loop body fuel state = some result) :
    post result := by
  induction fuel generalizing state with
  | zero => cases returned
  | succ fuel ih =>
    rcases turns state initial with ⟨next, turn, kept⟩ | ⟨reached, turn, holds⟩
    · rw [loop_again turn] at returned
      exact ih kept returned
    · rw [loop_done turn] at returned
      cases returned
      exact holds

/-- A loop ends with such a result, or it comes to such a state and goes on from there. -/
theorem loop_exit (invariant exit : σ → Prop) (post : ρ → Prop)
    (turns : ∀ state, invariant state → (∃ next, body state = .again next ∧ (invariant next ∨ exit next)) ∨
      ∃ result, body state = .done result ∧ post result)
    {fuel : Nat} {result : ρ} (initial : invariant state) (returned : loop body fuel state = some result) :
    post result ∨ ∃ last left, exit last ∧ loop body left last = some result := by
  induction fuel generalizing state with
  | zero => cases returned
  | succ fuel ih =>
    rcases turns state initial with ⟨next, turn, kept | leaves⟩ | ⟨reached, turn, holds⟩
    · rw [loop_again turn] at returned
      exact ih kept returned
    · rw [loop_again turn] at returned
      exact .inr ⟨next, fuel, leaves, returned⟩
    · rw [loop_done turn] at returned
      cases returned
      exact .inl holds

theorem loop_none (invariant : σ → Prop)
    (goes_on : ∀ state, invariant state → ∃ next, body state = .again next ∧ invariant next) (initial : invariant state)
    (fuel : Nat) : loop body fuel state = none := by
  induction fuel generalizing state with
  | zero => rfl
  | succ fuel ih =>
    obtain ⟨next, turn, still⟩ := goes_on state initial
    rw [loop_again turn]
    exact ih still

theorem loop_none_of_visits {start : σ} (visits : Visits body start state)
    (endless : ∀ fuel, loop body fuel state = none) (fuel : Nat) : loop body fuel start = none := by
  induction visits generalizing fuel with
  | start => exact endless fuel
  | @turn state next _ again ih =>
    apply ih
    intro fuel
    cases fuel with
    | zero => rfl
    | succ fuel => rw [loop_again again, endless fuel]

theorem loop_from_visits {start : σ} {result : ρ} (visits : Visits body start state) {fuel : Nat}
    (returned : loop body fuel start = some result) : ∃ left, loop body left state = some result := by
  induction visits with
  | start => exact ⟨fuel, returned⟩
  | turn _ again ih =>
    obtain ⟨left, rest⟩ := ih
    cases left with
    | zero => cases rest
    | succ left =>
      rw [loop_again again] at rest
      exact ⟨left, rest⟩

theorem loop_of_visits {start : σ} {result : ρ} (visits : Visits body start state) {fuel : Nat}
    (returned : loop body fuel state = some result) : ∃ more, loop body more start = some result := by
  induction visits generalizing fuel with
  | start => exact ⟨fuel, returned⟩
  | turn _ again ih => exact ih ((loop_again again fuel).trans returned)

theorem loop_unique {first second : ρ} {fuel more : Nat} (left : loop body fuel state = some first)
    (right : loop body more state = some second) : first = second := by
  rcases Nat.le_total fuel more with less | less
  · exact Option.some.inj ((loop_mono left less).symm.trans right)
  · exact Option.some.inj (left.symm.trans (loop_mono right less))

/-- Turns that begin in these states lead from one state to another. -/
inductive Stretch (body : σ → Turn σ ρ) : σ → List σ → σ → Prop
  | stay (state : σ) : Stretch body state [] state
  | turn {state next last : σ} {states : List σ} (again : body state = .again next) (leads : Stretch body next states last) :
      Stretch body state (state :: states) last

theorem stretch_trans {middle last : σ} {first second : List σ} (left : Stretch body state first middle)
    (right : Stretch body middle second last) : Stretch body state (first ++ second) last := by
  induction left with
  | stay state => exact right
  | turn again _ ih => exact .turn again (ih right)

theorem turns_stretch {last : σ} {states : List σ} (leads : Stretch body state states last) (fuel : Nat) :
    turns body (states.length + fuel) state = states ++ turns body fuel last ∧
      loop body (states.length + fuel) state = loop body fuel last := by
  induction leads with
  | stay state => simp
  | @turn state next last states again _ ih =>
    rw [List.length_cons, Nat.add_right_comm]
    refine ⟨?_, (loop_again again _).trans ih.2⟩
    simp only [turns, again, ih.1, List.cons_append]

theorem loop_ends [LT β] [WellFoundedLT β] (invariant : σ → Prop) (measure : σ → β)
    (turns : ∀ state, invariant state →
      (∃ next, body state = .again next ∧ invariant next ∧ measure next < measure state) ∨
        ∃ result, body state = .done result)
    (initial : invariant state) : ∃ fuel result, loop body fuel state = some result := by
  induction bound : measure state using WellFoundedLT.induction generalizing state with
  | ind _ ih =>
    subst bound
    rcases turns state initial with ⟨next, turn, kept, smaller⟩ | ⟨result, turn⟩
    · obtain ⟨fuel, result, returned⟩ := ih (measure next) smaller kept rfl
      exact ⟨fuel + 1, result, (loop_again turn fuel).trans returned⟩
    · exact ⟨1, result, loop_done turn 0⟩

/-- A loop in whose states a bound falls with every turn ends within so many turns. -/
theorem loop_within (invariant : Nat → σ → Prop) (post : ρ → Prop)
    (turns : ∀ bound state, invariant bound state →
      (∃ next less, body state = .again next ∧ less < bound ∧ invariant less next) ∨
        ∃ result, body state = .done result ∧ post result)
    {bound fuel : Nat} (initial : invariant bound state) (enough : bound < fuel) :
    ∃ result, loop body fuel state = some result ∧ post result := by
  induction fuel generalizing state bound with
  | zero => omega
  | succ fuel ih =>
    rcases turns bound state initial with ⟨next, less, turn, falls, kept⟩ | ⟨result, turn, holds⟩
    · rw [loop_again turn]
      exact ih kept (by omega)
    · exact ⟨result, loop_done turn fuel, holds⟩

end Machine
