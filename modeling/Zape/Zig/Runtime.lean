import Zape.Machine.Bytes

/-! What the modelled code takes from the Zig language and its `ArrayList`. -/
namespace Zig

open Machine

/-- Illegal behaviour that a safety-checked build traps, and explicit `@panic` calls. -/
inductive Panic
  | integerOverflow
  | castTruncatedData
  | reachedUnreachable
  | message (text : String)
  deriving DecidableEq, Repr

theorem bind_ok {ε α β : Type} {first : Except ε α} {continuation : α → Except ε β} {result : β}
    (h : first >>= continuation = .ok result) : ∃ value, first = .ok value ∧ continuation value = .ok result := by
  cases first with
  | error e => cases h
  | ok value => exact ⟨value, rfl, h⟩

variable {width : Nat}

def add (a b : BitVec width) : Except Panic (BitVec width) :=
  if a.toNat + b.toNat < 2 ^ width then .ok (a + b) else .error .integerOverflow

def mul (a b : BitVec width) : Except Panic (BitVec width) :=
  if a.toNat * b.toNat < 2 ^ width then .ok (a * b) else .error .integerOverflow

def intCast (target : Nat) (value : BitVec width) : Except Panic (BitVec target) :=
  if value.toNat < 2 ^ target then .ok (value.setWidth target) else .error .castTruncatedData

theorem add_ok {a b : BitVec width} (fits : a.toNat + b.toNat < 2 ^ width) : add a b = .ok (a + b) := by
  simp only [add, fits, ite_true]

theorem mul_ok {a b : BitVec width} (fits : a.toNat * b.toNat < 2 ^ width) : mul a b = .ok (a * b) := by
  simp only [mul, fits, ite_true]

theorem intCast_ok {target : Nat} {value : BitVec width} (fits : value.toNat < 2 ^ target) :
    intCast target value = .ok (value.setWidth target) := by
  simp only [intCast, fits, ite_true]

/-- An allocator that answers as listed, and grants everything after that. -/
structure Allocator where
  outcomes : List Bool := []

namespace Allocator

/-- A request for no bytes at all is never refused. -/
def allocate (allocator : Allocator) (size : Nat) : Bool × Allocator :=
  if size = 0 then (true, allocator)
  else match allocator.outcomes with
    | [] => (true, allocator)
    | outcome :: outcomes => (outcome, { outcomes })

@[simp] theorem allocate_granting (size : Nat) : ({} : Allocator).allocate size = (true, {}) := by
  unfold allocate
  split <;> rfl

end Allocator

/-- How far an `ArrayList` grows when it has to: at least to the capacity asked for. -/
class GrowthPolicy where
  growCapacity : Nat → Nat → Nat
  le_growCapacity : ∀ current minimum, minimum ≤ growCapacity current minimum

/-- Half as much again and a cache line. -/
@[reducible] def halfAgain : GrowthPolicy where
  growCapacity _ minimum := minimum + (minimum / 2 + 128)
  le_growCapacity := by
    intro current minimum
    exact Nat.le_add_right _ _

structure ArrayList (α : Type) where
  items : List α := []
  capacity : Nat := 0

namespace ArrayList

variable {α : Type}

/-- `clearRetainingCapacity`, which is what `resize(0)` comes to. -/
def resizeToZero (list : ArrayList α) : ArrayList α := { list with items := [] }

@[simp] theorem resizeToZero_items (list : ArrayList α) : list.resizeToZero.items = [] := rfl

variable [GrowthPolicy]

def ensureTotalCapacity (list : ArrayList α) (newCapacity : Nat) : ArrayList α :=
  if newCapacity ≤ list.capacity then list
  else { list with capacity := GrowthPolicy.growCapacity list.capacity newCapacity }

def appendSlice (list : ArrayList α) (slice : List α) : ArrayList α :=
  let room := list.ensureTotalCapacity (list.items.length + slice.length)
  { room with items := list.items ++ slice }

def append (list : ArrayList α) (item : α) : ArrayList α := list.appendSlice [item]

@[simp] theorem ensureTotalCapacity_items (list : ArrayList α) (newCapacity : Nat) :
    (list.ensureTotalCapacity newCapacity).items = list.items := by
  unfold ensureTotalCapacity
  split <;> rfl

@[simp] theorem appendSlice_items (list : ArrayList α) (slice : List α) :
    (list.appendSlice slice).items = list.items ++ slice := rfl

/-- `ensureTotalCapacity` with an allocator that may refuse to grow the list. -/
def reserve (list : ArrayList α) (allocator : Allocator) (newCapacity : Nat) : Option (ArrayList α) × Allocator :=
  if newCapacity ≤ list.capacity then (some list, allocator)
  else match allocator.allocate newCapacity with
    | (true, allocator) => (some (list.ensureTotalCapacity newCapacity), allocator)
    | (false, allocator) => (none, allocator)

@[simp] theorem reserve_granting (list : ArrayList α) (newCapacity : Nat) :
    list.reserve {} newCapacity = (some (list.ensureTotalCapacity newCapacity), {}) := by
  unfold reserve
  split
  · rw [ensureTotalCapacity, if_pos (by assumption)]
  · simp

theorem reserve_items {list reserved : ArrayList α} {allocator next : Allocator} {newCapacity : Nat}
    (granted : list.reserve allocator newCapacity = (some reserved, next)) : reserved.items = list.items := by
  unfold reserve at granted
  split at granted
  · cases granted
    rfl
  · split at granted
    · cases granted
      exact ensureTotalCapacity_items list newCapacity
    · cases granted

@[simp] theorem append_items (list : ArrayList α) (item : α) :
    (list.append item).items = list.items ++ [item] := rfl

end ArrayList

/-- A map from strings to values, as far as lookups can tell. -/
structure StringHashMap (α : Type) where
  get : List Byte → Option α := fun _ => none

namespace StringHashMap

variable {α : Type}

def put (map : StringHashMap α) (key : List Byte) (value : α) : StringHashMap α :=
  { get := fun name => if name = key then some value else map.get name }

end StringHashMap

end Zig
