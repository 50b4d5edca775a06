import Mathlib.Data.List.Nodup
import Mathlib.Logic.Function.Basic

/-! Doubly linked lists in a memory. -/
namespace Machine

/-- From `start` on, behind `before`, the pointers lead through these addresses and back. -/
def Double (next prev : Nat → Option Nat) : Option Nat → Option Nat → List Nat → Prop
  | _, start, [] => start = none
  | before, start, address :: rest =>
    start = some address ∧ prev address = before ∧ Double next prev (some address) (next address) rest

section Double

variable {next prev : Nat → Option Nat} {before start : Option Nat} {address : Nat} {left rest list : List Nat}

theorem double_head (double : Double next prev before start list) : start = list.head? := by
  cases list with
  | nil => exact double
  | cons address rest => exact double.1

theorem double_congr {next' prev' : Nat → Option Nat} (nexts : ∀ address ∈ list, next' address = next address)
    (prevs : ∀ address ∈ list, prev' address = prev address) (double : Double next prev before start list) :
    Double next' prev' before start list := by
  induction list generalizing before start with
  | nil => exact double
  | cons address rest ih =>
    obtain ⟨here, back, later⟩ := double
    refine ⟨here, (prevs address (by simp)).trans back, ?_⟩
    rw [nexts address (by simp)]
    exact ih (fun other member => nexts other (by simp [member])) (fun other member => prevs other (by simp [member])) later

theorem double_prev (double : Double next prev before start (left ++ address :: rest)) :
    prev address = if left = [] then before else left.getLast? := by
  induction left generalizing before start with
  | nil => exact double.2.1
  | cons first left ih =>
    have later := ih double.2.2
    rw [if_neg (List.cons_ne_nil first left), later]
    cases left with
    | nil => rfl
    | cons second left => rfl

theorem double_next (double : Double next prev before start (left ++ address :: rest)) : next address = rest.head? := by
  induction left generalizing before start with
  | nil => exact double_head double.2.2
  | cons first left ih => exact ih double.2.2

/-- The pointers forward once an address is taken out. -/
def nextWithout (next prev : Nat → Option Nat) (address : Nat) : Nat → Option Nat :=
  match prev address with
  | none => next
  | some before => Function.update next before (next address)

def prevWithout (next prev : Nat → Option Nat) (address : Nat) : Nat → Option Nat :=
  match next address with
  | none => prev
  | some after => Function.update prev after (prev address)

theorem nextWithout_other {other : Nat} (differ : prev address ≠ some other) :
    nextWithout next prev address other = next other := by
  cases back : prev address with
  | none => simp only [nextWithout, back]
  | some before =>
    simp only [nextWithout, back]
    apply Function.update_of_ne
    rintro rfl
    exact differ back

theorem prevWithout_other {other : Nat} (differ : next address ≠ some other) :
    prevWithout next prev address other = prev other := by
  cases forward : next address with
  | none => simp only [prevWithout, forward]
  | some after =>
    simp only [prevWithout, forward]
    apply Function.update_of_ne
    rintro rfl
    exact differ forward

theorem double_unlink (double : Double next prev before start (left ++ address :: rest))
    (nodup : (left ++ address :: rest).Nodup) (outside : ∀ other, before = some other → other ∉ left ++ address :: rest) :
    Double (nextWithout next prev address) (prevWithout next prev address) before
      (if left = [] then next address else start) (left ++ rest) := by
  induction left generalizing before start with
  | nil =>
    obtain ⟨-, back, later⟩ := double
    have apart := List.nodup_cons.mp nodup
    rw [if_pos rfl]
    cases rest with
    | nil => exact later
    | cons other rest =>
      obtain ⟨forward, -, last⟩ := later
      have alone := List.nodup_cons.mp apart.2
      refine ⟨forward, ?_, ?_⟩
      · simp only [prevWithout, forward, Function.update_self]
        exact back
      · have kept : ∀ node ∈ other :: rest, nextWithout next prev address node = next node := by
          intro node member
          apply nextWithout_other
          rw [back]
          intro same
          exact outside node same (List.mem_cons_of_mem address member)
        rw [kept other (by simp)]
        apply double_congr (fun node member => kept node (List.mem_cons_of_mem other member)) ?_ last
        intro node member
        apply prevWithout_other
        rw [forward]
        intro same
        exact alone.1 (Option.some.inj same ▸ member)
  | cons first left ih =>
    obtain ⟨here, back, later⟩ := double
    have apart := List.nodup_cons.mp nodup
    have shorter := ih later apart.2 fun other same => Option.some.inj same ▸ apart.1
    rw [if_neg (List.cons_ne_nil first left)]
    refine ⟨here, ?_, ?_⟩
    · rw [prevWithout_other, back]
      rw [double_next later]
      intro same
      exact apart.1 (List.mem_append_right _ (List.mem_cons_of_mem _ (List.mem_of_head? same)))
    · have pointer : nextWithout next prev address first = if left = [] then next address else next first := by
        have points := double_prev later
        split
        · rename_i none
          rw [if_pos none] at points
          simp only [nextWithout, points, Function.update_self]
        · rename_i some_left
          rw [if_neg some_left] at points
          apply nextWithout_other
          rw [points]
          intro same
          exact apart.1 (List.mem_append_left _ (List.mem_of_getLast? same))
      rw [pointer]
      exact shorter

theorem double_push (double : Double next prev none start list) (nodup : list.Nodup) (fresh : address ∉ list)
    {back : Nat → Option Nat} (first : ∀ other, start = some other → back other = some address)
    (others : ∀ other ∈ list, start ≠ some other → back other = prev other) (own : back address = none) :
    Double (Function.update next address start) back none (some address) (address :: list) := by
  refine ⟨rfl, own, ?_⟩
  rw [Function.update_self]
  cases list with
  | nil => exact double
  | cons head rest =>
    obtain ⟨here, -, later⟩ := double
    refine ⟨here, first head here, ?_⟩
    have apart : head ≠ address := fun same => fresh (by simp [same])
    rw [Function.update_of_ne apart]
    have alone := List.nodup_cons.mp nodup
    apply double_congr ?_ ?_ later
    · intro other member
      apply Function.update_of_ne
      rintro rfl
      exact fresh (List.mem_cons_of_mem head member)
    · intro other member
      apply others other (List.mem_cons_of_mem head member)
      rw [here]
      rintro same
      exact alone.1 (Option.some.inj same ▸ member)

end Double

end Machine
