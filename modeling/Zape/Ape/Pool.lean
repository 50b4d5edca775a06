import Mathlib.Logic.Function.Basic

/-! `ape_pool.c`: lists of slots that are linked by pointers and allocated in blocks. -/
namespace ZapeModel

/-- Undefined behaviour of the C code. -/
inductive Fault
  | nullDereference
  | wildPointer
  deriving DecidableEq, Repr

def apePoolAlloc : BitVec 32 := 0x01#32

def apePoolAllFlags : BitVec 32 := apePoolAlloc

/-- `ape_pool_t` with whatever a structure that starts with it adds; `content` includes the union `ptr`. -/
structure PoolNode (α : Type) where
  content : α
  next : Option Nat := none
  prev : Option Nat := none
  flags : BitVec 32 := 0#32

/-- `ape_pool_list_t` and the memory of its nodes, which is allocated from address 0 up to `count`. -/
structure PoolList (α : Type) where
  node : Nat → PoolNode α
  count : Nat
  head : Option Nat
  queue : Nat
  current : Option Nat

variable {α : Type}

namespace PoolList

def modify (list : PoolList α) (address : Nat) (change : PoolNode α → PoolNode α) : PoolList α :=
  { list with node := Function.update list.node address (change (list.node address)) }

def setNext (list : PoolList α) (address : Nat) (next : Option Nat) : PoolList α :=
  list.modify address fun node => { node with next }

def setPrev (list : PoolList α) (address : Nat) (prev : Option Nat) : PoolList α :=
  list.modify address fun node => { node with prev }

def setContent (list : PoolList α) (address : Nat) (content : α) : PoolList α :=
  list.modify address fun node => { node with content }

def setFlags (list : PoolList α) (address : Nat) (flags : BitVec 32) : PoolList α :=
  list.modify address fun node => { node with flags }

end PoolList

variable [Inhabited α]

/-- The block at `pool`. The default content has a null `ptr`; its other fields stand for what `malloc` left there. -/
def apeNewPool (node : Nat → PoolNode α) (pool n : Nat) : Nat → PoolNode α := fun address =>
  if pool ≤ address ∧ address < pool + n then
    { content := default
      next := if address + 1 = pool + n then none else some (address + 1)
      prev := if address = pool then none else some (address - 1)
      flags := if address = pool then apePoolAlloc else 0#32 }
  else node address

def apeInitPoolList (n : Nat) : PoolList α where
  node := apeNewPool (fun _ => { content := default }) 0 n
  count := n
  head := some 0
  queue := n - 1
  current := some 0

def apeGrowPool (list : PoolList α) (n : Nat) : PoolList α × Nat :=
  let pool := list.count
  let grown := { list with node := apeNewPool list.node pool n, count := pool + n }
  let linked := (grown.setNext list.queue (some pool)).setPrev pool (some list.queue)
  ({ linked with queue := pool + (n - 1) }, pool)

omit [Inhabited α]

def apePoolHeadToQueue (list : PoolList α) : Except Fault (PoolList α × Option Nat) :=
  match list.head with
  | none => .error .nullDereference
  | some head =>
    let next := (list.node head).next
    let moved := (list.setNext list.queue (some head)).setNext head none
    .ok ({ moved with head := next, queue := head }, next)

def apePoolHeadToCurrent (list : PoolList α) : Except Fault (PoolList α × Option Nat) :=
  if list.head = list.current then .ok (list, list.head)
  else
    match list.head, list.current with
    | some head, some current =>
      let first := (list.node head).next
      let behind := (list.node current).next
      let moved := (list.setNext head behind).setNext current (some head)
      let queue := if behind = none then head else list.queue
      .ok ({ moved with head := first, current := some head, queue }, first)
    | _, _ => .error .nullDereference

end ZapeModel
