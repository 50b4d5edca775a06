import Mathlib.Data.List.Perm.Lattice
import Zape.Ape.Slots

/-! Pool lists over whole runs of the functions of `ape_pool.c`. -/
namespace ZapeModel

open Machine

/-- What one call of `ape_new_pool` allocates. -/
structure PoolBlock where
  start : Nat
  nodes : Nat

def PoolBlock.addresses (block : PoolBlock) : List Nat := List.range' block.start block.nodes

/-- A pool list with the blocks of its nodes, and the addresses that were given to `free`. -/
structure PoolHeap (α : Type) where
  list : PoolList α
  blocks : List PoolBlock
  freed : List Nat := []

inductive PoolCall
  | grow (n : Nat)
  | push (data : Option Nat)
  | rewind
  | headToQueue
  | headToCurrent
  deriving DecidableEq

variable {α : Type}

def PoolHeap.allocated (heap : PoolHeap α) : List Nat := heap.blocks.flatMap PoolBlock.addresses

def PoolHeap.starts (heap : PoolHeap α) : List Nat := heap.blocks.map PoolBlock.start

def PoolList.apePoolRewind (list : PoolList α) : PoolList α := { list with current := list.head }

variable [Inhabited α]

def PoolHeap.apeInitPoolList (n : Nat) : PoolHeap α where
  list := ZapeModel.apeInitPoolList n
  blocks := [{ start := 0, nodes := n }]

def PoolHeap.apeGrowPool (heap : PoolHeap α) (n : Nat) : PoolHeap α :=
  { heap with list := (ZapeModel.apeGrowPool heap.list n).1
              blocks := heap.blocks ++ [{ start := heap.list.count, nodes := n }] }

/-- `setData` is the write to `ptr.data`, whatever else the content of a node of the list has. -/
def PoolList.advance (setData : Option Nat → α → α) (list : PoolList α) (current : Nat) (data : Option Nat) : PoolList α :=
  let written := list.setContent current (setData data (list.node current).content)
  { written with current := (written.node current).next }

def PoolHeap.apePoolPush (setData : Option Nat → α → α) (heap : PoolHeap α) (data : Option Nat) :
    Except Fault (PoolHeap α) :=
  match heap.list.current with
  | none => .error .nullDereference
  | some current =>
    let grown := if (heap.list.node current).next = none then heap.apeGrowPool 8 else heap
    .ok { grown with list := grown.list.advance setData current data }

def PoolHeap.perform (setData : Option Nat → α → α) (heap : PoolHeap α) : PoolCall → Except Fault (PoolHeap α)
  | .grow n => .ok (heap.apeGrowPool n)
  | .push data => heap.apePoolPush setData data
  | .rewind => .ok { heap with list := heap.list.apePoolRewind }
  | .headToQueue => (apePoolHeadToQueue heap.list).map fun moved => { heap with list := moved.1 }
  | .headToCurrent => (apePoolHeadToCurrent heap.list).map fun moved => { heap with list := moved.1 }

end ZapeModel

namespace ZapeProof

open Machine ZapeModel

variable {α : Type}

/-- How the socket code makes the calls. -/
def CallsApart (heap : PoolHeap α) : PoolCall → Prop
  | .grow n => 1 ≤ n
  | .headToQueue => heap.list.head ≠ heap.list.current
  | _ => True

/-- The head goes to the queue only where it is not the queue. -/
def CallsRotate (heap : PoolHeap α) : PoolCall → Prop
  | .grow n => 1 ≤ n
  | .headToQueue => ∃ head ∈ heap.list.head, (heap.list.node head).next ≠ none
  | _ => True

/-- Following `next` from the head comes to every allocated node once and ends at the queue, and the current node is one
    of these. -/
def VisitsAll (heap : PoolHeap α) : Prop :=
  ∃ nodes, Segment (nexts heap.list) heap.list.head nodes none ∧ nodes.Nodup ∧
    (∀ address, address ∈ nodes ↔ address ∈ heap.allocated) ∧ nodes.getLast? = some heap.list.queue ∧
    ∃ current ∈ nodes, heap.list.current = some current

/-- The nodes of a list whose memory is there, in their order. -/
structure Pools (heap : PoolHeap α) (nodes : List Nat) : Prop where
  shape : Shape heap.list nodes
  all : nodes.Perm heap.allocated
  current : ∃ current ∈ nodes, heap.list.current = some current
  count : heap.allocated = List.range heap.list.count
  flags : ∀ block ∈ heap.blocks, ∀ address ∈ block.addresses,
    flagsOf heap.list address = if address = block.start then apePoolAlloc else 0#32
  filled : ∀ block ∈ heap.blocks, 0 < block.nodes
  held : heap.freed = []

section Calls

variable {heap : PoolHeap α} {nodes : List Nat}

theorem Pools.visits (pools : Pools heap nodes) : VisitsAll heap :=
  ⟨nodes, pools.shape.chain, pools.shape.nodup, fun _ => pools.all.mem_iff, pools.shape.queue, pools.current⟩

/-- A call that allocates nothing leaves the nodes in another order. -/
theorem Pools.reorder {list : PoolList α} {others : List Nat} (pools : Pools heap nodes) (shape : Shape list others)
    (same : others.Perm nodes) (current : ∃ current ∈ others, list.current = some current)
    (flags : flagsOf list = flagsOf heap.list) (count : list.count = heap.list.count) :
    Pools { heap with list } others where
  shape := shape
  all := same.trans pools.all
  current := current
  count := by
    show heap.allocated = _
    rw [pools.count, count]
  flags := by
    rw [flags]
    exact pools.flags
  filled := pools.filled
  held := pools.held

theorem pools_init [Inhabited α] {n : Nat} (positive : 1 ≤ n) :
    Pools (PoolHeap.apeInitPoolList n : PoolHeap α) (List.range' 0 n) where
  shape := shape_init positive
  all := by simp [PoolHeap.apeInitPoolList, PoolHeap.allocated, PoolBlock.addresses]
  current := ⟨0, by simp; omega, rfl⟩
  count := by simp [PoolHeap.apeInitPoolList, apeInitPoolList, PoolHeap.allocated, PoolBlock.addresses, List.range_eq_range']
  flags := by
    intro block member address inside
    obtain rfl := List.mem_singleton.mp member
    have within : address < n := by
      rw [PoolBlock.addresses, List.mem_range'_1] at inside
      simpa using inside
    simp [PoolHeap.apeInitPoolList, apeInitPoolList, flagsOf, apeNewPool, within]
  filled := by
    intro block member
    obtain rfl := List.mem_singleton.mp member
    exact positive
  held := rfl

theorem Pools.grow [Inhabited α] (pools : Pools heap nodes) {n : Nat} (positive : 1 ≤ n) :
    Pools (heap.apeGrowPool n) (nodes ++ List.range' heap.list.count n) where
  shape := shape_grow pools.shape positive
  all := by
    unfold PoolHeap.allocated PoolHeap.apeGrowPool
    simp only [List.flatMap_append, List.flatMap_singleton]
    exact pools.all.append_right _
  current := by
    obtain ⟨current, member, points⟩ := pools.current
    exact ⟨current, List.mem_append_left _ member, points⟩
  count := by
    unfold PoolHeap.allocated PoolHeap.apeGrowPool
    simp only [List.flatMap_append, List.flatMap_singleton]
    rw [show heap.blocks.flatMap PoolBlock.addresses = List.range heap.list.count from pools.count, PoolBlock.addresses]
    show _ = List.range (heap.list.count + n)
    have joined := @List.range'_append_1 0 heap.list.count n
    rw [Nat.zero_add] at joined
    rw [List.range_eq_range', joined, ← List.range_eq_range']
  flags := by
    intro block member address inside
    unfold PoolHeap.apeGrowPool at member ⊢
    rw [flagsOf_grow]
    rcases List.mem_append.mp member with old | new
    · have below : address < heap.list.count := by
        rw [← List.mem_range, ← pools.count]
        exact List.mem_flatMap.mpr ⟨block, old, inside⟩
      rw [if_neg (by omega)]
      exact pools.flags block old address inside
    · obtain rfl := List.mem_singleton.mp new
      rw [PoolBlock.addresses, List.mem_range'_1] at inside
      rw [if_pos inside]
  filled := by
    intro block member
    rcases List.mem_append.mp member with old | new
    · exact pools.filled block old
    · obtain rfl := List.mem_singleton.mp new
      exact positive
  held := pools.held

/-- The current node is written, and the one behind it is then the current one. -/
theorem Pools.advance (pools : Pools heap nodes) (setData : Option Nat → α → α) (data : Option Nat) {current next : Nat}
    (member : current ∈ nodes) (follows : (heap.list.node current).next = some next) :
    Pools { heap with list := heap.list.advance setData current data } nodes := by
  let written := heap.list.setContent current (setData data (heap.list.node current).content)
  have kept : (written.node current).next = some next :=
    (congrFun (nexts_setContent heap.list current _) current).trans follows
  refine pools.reorder (shape_current (shape_setContent pools.shape current _) _) (List.Perm.refl nodes)
    ⟨next, ?_, kept⟩ (flagsOf_setContent heap.list current _) rfl
  obtain ⟨front, rest, rfl⟩ := List.append_of_mem member
  have behind := pools.shape.next.symm.trans follows
  cases rest with
  | nil => cases behind
  | cons other rest =>
    cases behind
    simp

theorem Pools.push [Inhabited α] (pools : Pools heap nodes) (setData : Option Nat → α → α) (data : Option Nat) :
    ∃ pushed others, heap.apePoolPush setData data = .ok pushed ∧ Pools pushed others := by
  obtain ⟨current, member, points⟩ := pools.current
  unfold PoolHeap.apePoolPush
  simp only [points]
  cases follows : (heap.list.node current).next with
  | none =>
    have grown := pools.grow (show 1 ≤ 8 by omega)
    obtain ⟨front, rest, rfl⟩ := List.append_of_mem member
    have last : rest = [] := List.head?_eq_none_iff.mp (pools.shape.next.symm.trans follows)
    subst last
    have fresh : ((heap.apeGrowPool 8).list.node current).next = some heap.list.count := by
      have shape := grown.shape
      rw [List.append_assoc] at shape
      exact shape.next
    rw [if_pos rfl]
    exact ⟨_, _, rfl, grown.advance setData data (List.mem_append_left _ member) fresh⟩
  | some next =>
    rw [if_neg nofun]
    exact ⟨_, nodes, rfl, pools.advance setData data member follows⟩

theorem Pools.headToQueue (pools : Pools heap nodes)
    (more : ∃ head ∈ heap.list.head, (heap.list.node head).next ≠ none) :
    ∃ moved others, (apePoolHeadToQueue heap.list).map (fun moved => { heap with list := moved.1 }) = .ok moved ∧
      Pools moved others := by
  obtain ⟨head, first, follows⟩ := more
  rw [Option.mem_def] at first
  obtain ⟨second, rest, rfl⟩ : ∃ second rest, nodes = head :: second :: rest := by
    have chain := pools.shape.chain
    rw [first] at chain
    cases nodes with
    | nil => cases chain
    | cons address rest =>
      cases chain.1
      cases rest with
      | nil => exact absurd (@Shape.next _ _ [] _ _ pools.shape) follows
      | cons second rest => exact ⟨second, rest, rfl⟩
  obtain ⟨list, moves, shape, -, current, count⟩ := headToQueue_shape pools.shape
  have turned : (second :: rest ++ [head]).Perm (head :: second :: rest) := List.perm_append_singleton head _
  have flags : flagsOf list = flagsOf heap.list := by
    unfold apePoolHeadToQueue at moves
    rw [first] at moves
    have same : _ = list := congrArg Prod.fst (Except.ok.inj moves)
    rw [← same]
    show flagsOf ((heap.list.setNext heap.list.queue (some head)).setNext head none) = _
    rw [flagsOf_setNext, flagsOf_setNext]
  refine ⟨{ heap with list }, _, by rw [moves]; rfl, pools.reorder shape turned ?_ flags count⟩
  obtain ⟨now, member, points⟩ := pools.current
  exact ⟨now, turned.mem_iff.mpr member, current.trans points⟩

theorem Pools.headToCurrent (pools : Pools heap nodes) :
    ∃ moved others, (apePoolHeadToCurrent heap.list).map (fun moved => { heap with list := moved.1 }) = .ok moved ∧
      Pools moved others := by
  obtain ⟨current, member, points⟩ := pools.current
  cases nodes with
  | nil => cases member
  | cons head nodes =>
    rcases List.mem_cons.mp member with rfl | later
    · have same : heap.list.head = heap.list.current := pools.shape.chain.1.trans points.symm
      unfold apePoolHeadToCurrent
      rw [if_pos same]
      exact ⟨heap, _, rfl, pools⟩
    · obtain ⟨front, rest, rfl⟩ := List.append_of_mem later
      obtain ⟨list, first, moves, shape, flags, -, now, count⟩ := headToCurrent_shape pools.shape points
      have turned : (front ++ current :: head :: rest).Perm (head :: (front ++ current :: rest)) := by
        have split : front ++ current :: head :: rest = (front ++ [current]) ++ head :: rest := by simp
        rw [split]
        simpa using @List.perm_middle _ head (front ++ [current]) rest
      exact ⟨{ heap with list }, _, by rw [moves]; rfl, pools.reorder shape turned ⟨head, by simp, now⟩ flags count⟩

theorem Pools.perform [Inhabited α] (pools : Pools heap nodes) (setData : Option Nat → α → α) {call : PoolCall}
    (rotates : CallsRotate heap call) :
    ∃ next others, heap.perform setData call = .ok next ∧ Pools next others := by
  cases call with
  | grow n => exact ⟨_, _, rfl, pools.grow rotates⟩
  | push data => exact pools.push setData data
  | rewind =>
    refine ⟨_, nodes, rfl, pools.reorder (shape_current pools.shape _) (List.Perm.refl nodes) ?_ rfl rfl⟩
    obtain ⟨current, member, -⟩ := pools.current
    cases nodes with
    | nil => cases member
    | cons head rest => exact ⟨head, List.mem_cons_self, pools.shape.chain.1⟩
  | headToQueue => exact pools.headToQueue rotates
  | headToCurrent => exact pools.headToCurrent

/-- A head that is not the current node has another one behind it. -/
theorem Pools.rotates (pools : Pools heap nodes) {call : PoolCall} (apart : CallsApart heap call) :
    CallsRotate heap call := by
  cases call with
  | headToQueue =>
    obtain ⟨current, member, points⟩ := pools.current
    cases nodes with
    | nil => cases member
    | cons head rest =>
      have start := pools.shape.chain.1
      refine ⟨head, start, fun last => ?_⟩
      have alone : rest = [] := List.head?_eq_none_iff.mp ((@Shape.next _ _ [] _ _ pools.shape).symm.trans last)
      subst alone
      apply apart
      rw [start, points, List.mem_singleton.mp member]
  | _ => exact apart

end Calls

section Runs

variable [Inhabited α] (setData : Option Nat → α → α) {n : Nat} {calls : List PoolCall}

theorem run_pools {condition : PoolHeap α → PoolCall → Prop} (positive : 1 ≤ n)
    (rotates : ∀ heap nodes call, Pools heap nodes → condition heap call → CallsRotate heap call)
    (each : EachStep (PoolHeap.perform setData) (PoolHeap.apeInitPoolList n) calls condition) :
    ∃ heap, runAll (PoolHeap.perform setData) (PoolHeap.apeInitPoolList n) calls = .ok heap ∧ ∃ nodes, Pools heap nodes := by
  apply @runAll_total _ _ _ _ _ calls (fun heap => ∃ nodes, Pools heap nodes) ⟨_, pools_init positive⟩ ?_ calls [] (by simp)
  intro before call after heap split reached kept
  obtain ⟨nodes, pools⟩ := kept
  have allowed := rotates heap nodes call pools (each before call after heap split reached)
  obtain ⟨next, others, performed, kept⟩ := pools.perform setData allowed
  exact ⟨next, performed, others, kept⟩

/-- No call loses a node, or has the list come to one twice. -/
theorem pool_visits (two : 2 ≤ n)
    (each : EachStep (PoolHeap.perform setData) (PoolHeap.apeInitPoolList n) calls CallsApart) :
    ∃ heap, runAll (PoolHeap.perform setData) (PoolHeap.apeInitPoolList n) calls = .ok heap ∧
      heap.allocated.Nodup ∧ VisitsAll heap := by
  have one : 1 ≤ n := by omega
  obtain ⟨heap, reached, nodes, pools⟩ := run_pools setData one (fun _ _ _ pools apart => pools.rotates apart) each
  exact ⟨heap, reached, pools.all.nodup_iff.mp pools.shape.nodup, pools.visits⟩

instance (heap : PoolHeap α) (call : PoolCall) : Decidable (CallsApart heap call) :=
  match call with
  | .grow n => inferInstanceAs (Decidable (1 ≤ n))
  | .headToQueue => inferInstanceAs (Decidable (heap.list.head ≠ heap.list.current))
  | .push _ | .rewind | .headToCurrent => inferInstanceAs (Decidable True)

instance (heap : PoolHeap α) (call : PoolCall) : Decidable (CallsRotate heap call) :=
  match call with
  | .grow n => inferInstanceAs (Decidable (1 ≤ n))
  | .headToQueue => inferInstanceAs (Decidable (∃ head ∈ heap.list.head, (heap.list.node head).next ≠ none))
  | .push _ | .rewind | .headToCurrent => inferInstanceAs (Decidable True)

def rotating : List PoolCall := [.push (some 7), .headToQueue, .headToCurrent, .push (some 8), .grow 2, .headToCurrent, .rewind]

theorem pool_visits_rotating : ∃ heap,
    runAll (PoolHeap.perform fun data _ => data) (PoolHeap.apeInitPoolList 2) rotating = .ok heap ∧
      heap.allocated.Nodup ∧ VisitsAll heap :=
  pool_visits (fun data _ => data) (by decide) (each_of_check (by decide))

end Runs

end ZapeProof
