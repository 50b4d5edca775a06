import Mathlib.Data.List.Nodup
import Mathlib.Logic.Function.Basic

/-! Linked lists in a memory: the addresses that a chain of pointers leads through. -/
namespace Machine

/-- Following `next` from `start` leads through these addresses and then to `stop`. -/
def Segment (next : Nat → Option Nat) : Option Nat → List Nat → Option Nat → Prop
  | start, [], stop => start = stop
  | start, address :: rest, stop => start = some address ∧ Segment next (next address) rest stop

variable {next : Nat → Option Nat} {start stop : Option Nat} {address : Nat} {left right : List Nat}

theorem segment_append :
    Segment next start (left ++ right) stop ↔ ∃ middle, Segment next start left middle ∧ Segment next middle right stop := by
  induction left generalizing start with
  | nil => simp [Segment]
  | cons first left ih => simp only [List.cons_append, Segment, ih, and_assoc, exists_and_left]

theorem segment_head (chain : Segment next start left stop) : start = left.head?.or stop := by
  cases left with
  | nil => exact chain
  | cons first left => exact chain.1

theorem segment_congr {other : Nat → Option Nat} (same : ∀ address ∈ left, other address = next address) :
    Segment other start left stop ↔ Segment next start left stop := by
  induction left generalizing start with
  | nil => rfl
  | cons first left ih =>
    have here := same first (by simp)
    have later := @ih (next first) fun address member => same address (by simp [member])
    rw [Segment, Segment, here, later]

/-- A chain does not depend on the pointers of other nodes. -/
theorem segment_update (outside : address ∉ left) (pointer : Option Nat) :
    Segment (Function.update next address pointer) start left stop ↔ Segment next start left stop := by
  apply segment_congr
  intro other member
  apply Function.update_of_ne
  rintro rfl
  exact outside member

theorem segment_redirect (chain : Segment next start (left ++ [address]) stop) (outside : address ∉ left)
    (pointer : Option Nat) :
    Segment (Function.update next address pointer) start (left ++ [address]) pointer := by
  rcases segment_append.mp chain with ⟨middle, before, last, -⟩
  apply segment_append.mpr
  refine ⟨middle, (segment_update outside pointer).mpr before, last, ?_⟩
  simp [Segment]

end Machine
