import Zape.Ape.Freeing
import Zape.Ape.Pooling

/-! `ape_destroy_pool_with_cleaner` on the blocks of a pool list: what it reads, and what it gives to `free`. -/
namespace ZapeModel

open Machine

variable {α σ : Type}

namespace PoolHeap

variable (heap : PoolHeap α)

/-- The block that a node lies in. -/
def home (address : Nat) : Option Nat :=
  (heap.blocks.find? fun block => decide (address ∈ block.addresses)).map PoolBlock.start

/-- A node is there until its block is freed. -/
def read (address : Nat) : Except Fault (PoolNode α) :=
  match heap.home address with
  | none => .error .wildPointer
  | some start => if start ∈ heap.freed then .error .wildPointer else .ok (heap.list.node address)

/-- `free`, which is to be called once, with what `malloc` returned. -/
def free (address : Nat) : Except Fault (PoolHeap α) :=
  if address ∈ heap.starts ∧ address ∉ heap.freed then .ok { heap with freed := heap.freed ++ [address] }
  else .error .wildPointer

end PoolHeap

variable (cleaner : Nat → PoolNode α → σ → σ)

/-- The first loop frees nothing: a node that it has read may be read and written later in it. -/
def Destroying.turn (heap : PoolHeap α) (destroying : Destroying α σ) :
    Turn (Destroying α σ) (Except Fault (Destroying α σ)) :=
  match destroying.pool with
  | none => .done (.ok destroying)
  | some pool =>
    match heap.read pool with
    | .error fault => .done (.error fault)
    | .ok _ => .again (destroying.visit cleaner pool)

/-- The second loop, on the blocks that the first one has linked. -/
def PoolHeap.freeTurn (state : PoolHeap α × Option Nat) :
    Turn (PoolHeap α × Option Nat) (Except Fault (PoolHeap α)) :=
  match state with
  | (heap, none) => .done (.ok heap)
  | (heap, some pool) =>
    match heap.read pool with
    | .error fault => .done (.error fault)
    | .ok node =>
      if node.flags &&& apePoolAlloc ≠ 0#32 then
        match heap.free pool with
        | .error fault => .done (.error fault)
        | .ok heap => .again (heap, node.next)
      else .done (.ok heap)

/-- `none` where one of the loops takes more turns. -/
def PoolHeap.apeDestroyPoolWithCleaner (turns : Nat) (heap : PoolHeap α) (pool : Option Nat) (ctx : σ) :
    Option (Except Fault (PoolHeap α × σ)) :=
  match loop (Destroying.turn cleaner heap) turns { list := heap.list, pool, ctx } with
  | none => none
  | some (.error fault) => some (.error fault)
  | some (.ok destroying) =>
    let list :=
      match destroying.fPool with
      | none => destroying.list
      | some fPool => destroying.list.setNext fPool none
    (loop PoolHeap.freeTurn turns ({ heap with list }, destroying.tPool)).map fun result =>
      result.map fun heap => (heap, destroying.ctx)

end ZapeModel

namespace ZapeProof

open Machine ZapeModel

variable {α σ : Type} {cleaner : Nat → PoolNode α → σ → σ}

def isBlock (list : PoolList α) (address : Nat) : Bool := decide (flagsOf list address &&& apePoolAlloc ≠ 0#32)

/-- The nodes with which a block begins, in the order of the list. -/
def blocksOf (list : PoolList α) (nodes : List Nat) : List Nat := nodes.filter (isBlock list)

section Homes

variable {heap : PoolHeap α} {nodes : List Nat}

theorem home_of_mem {blocks : List PoolBlock} {block : PoolBlock} {address : Nat}
    (apart : (blocks.flatMap PoolBlock.addresses).Nodup) (member : block ∈ blocks) (inside : address ∈ block.addresses) :
    blocks.find? (fun other => decide (address ∈ other.addresses)) = some block := by
  induction blocks with
  | nil => cases member
  | cons first blocks ih =>
    rw [List.flatMap_cons] at apart
    have parts := List.nodup_append.mp apart
    by_cases here : address ∈ first.addresses
    · rw [List.find?_cons_of_pos (by simpa using here)]
      rcases List.mem_cons.mp member with rfl | later
      · rfl
      · exact absurd rfl (parts.2.2 address here address (List.mem_flatMap.mpr ⟨block, later, inside⟩))
    · rw [List.find?_cons_of_neg (by simpa using here)]
      rcases List.mem_cons.mp member with rfl | later
      · exact absurd inside here
      · exact ih parts.2.1 later

theorem Pools.home (pools : Pools heap nodes) {block : PoolBlock} {address : Nat} (member : block ∈ heap.blocks)
    (inside : address ∈ block.addresses) : heap.home address = some block.start := by
  have apart : heap.allocated.Nodup := pools.all.nodup_iff.mp pools.shape.nodup
  rw [PoolHeap.home, home_of_mem apart member inside]
  rfl

theorem Pools.home_start (pools : Pools heap nodes) {start : Nat} (member : start ∈ heap.starts) :
    heap.home start = some start := by
  obtain ⟨block, among, rfl⟩ := List.mem_map.mp member
  have filled := pools.filled block among
  apply pools.home among
  rw [PoolBlock.addresses, List.mem_range'_1]
  omega

theorem Pools.home_node (pools : Pools heap nodes) {address : Nat} (member : address ∈ nodes) :
    ∃ start, heap.home address = some start ∧ start ∈ heap.starts := by
  obtain ⟨block, among, inside⟩ := List.mem_flatMap.mp (pools.all.mem_iff.mp member)
  exact ⟨block.start, pools.home among inside, List.mem_map_of_mem among⟩

/-- The flag is set on the first node of every block and on no other. -/
theorem Pools.blocks (pools : Pools heap nodes) : (blocksOf heap.list nodes).Perm heap.starts := by
  have turned : (blocksOf heap.list nodes).Perm (blocksOf heap.list heap.allocated) := pools.all.filter _
  refine turned.trans (List.Perm.of_eq ?_)
  have flags := pools.flags
  have filled := pools.filled
  unfold PoolHeap.allocated PoolHeap.starts
  generalize heap.blocks = blocks at flags filled
  induction blocks with
  | nil => rfl
  | cons block blocks ih =>
    have later := ih (fun other member => flags other (List.mem_cons_of_mem block member))
      fun other member => filled other (List.mem_cons_of_mem block member)
    have flag := flags block List.mem_cons_self
    obtain ⟨left, length⟩ : ∃ left, block.nodes = left + 1 := ⟨block.nodes - 1, by
      have := filled block List.mem_cons_self
      omega⟩
    have own : blocksOf heap.list block.addresses = [block.start] := by
      rw [PoolBlock.addresses, length, List.range'_succ] at flag ⊢
      have head : isBlock heap.list block.start = true := by
        unfold isBlock
        rw [flag block.start List.mem_cons_self, if_pos rfl]
        rfl
      rw [blocksOf, List.filter_cons_of_pos head, List.cons_eq_cons]
      refine ⟨rfl, List.filter_eq_nil_iff.mpr fun address inside => ?_⟩
      have behind : address ≠ block.start := by
        rw [List.mem_range'_1] at inside
        omega
      unfold isBlock
      rw [flag address (List.mem_cons_of_mem _ inside), if_neg behind]
      simp
    rw [List.flatMap_cons, List.map_cons, ← later]
    unfold blocksOf at own ⊢
    rw [List.filter_append, own]
    rfl

theorem Pools.starts_nodup (pools : Pools heap nodes) : heap.starts.Nodup :=
  pools.blocks.nodup_iff.mp (pools.shape.nodup.filter _)

end Homes

section Linking

/-- The blocks that the first loop has passed: the last of them leads back to the first one. -/
structure BlocksLinked (list : PoolList α) (destroying : Destroying α σ) (heads : List Nat) : Prop where
  first : destroying.fPool = heads.head?
  chain : Segment (nexts destroying.list) destroying.tPool heads.tail.reverse heads.head?
  flags : flagsOf destroying.list = flagsOf list

theorem BlocksLinked.visit {list : PoolList α} {destroying : Destroying α σ} {heads : List Nat} {address : Nat}
    (linked : BlocksLinked list destroying heads) (nodup : heads.Nodup) (outside : address ∉ heads) :
    BlocksLinked list (destroying.visit cleaner address) (heads ++ blocksOf list [address]) := by
  have flag : (destroying.list.node address).flags = flagsOf list address := congrFun linked.flags address
  by_cases block : (destroying.list.node address).flags &&& apePoolAlloc ≠ 0#32
  · have own : blocksOf list [address] = [address] :=
      List.filter_cons_of_pos (by rw [isBlock, ← flag]; exact decide_eq_true block)
    rw [own]
    cases heads with
    | nil =>
      rw [visit_first block linked.chain linked.first]
      exact { first := rfl, chain := rfl, flags := linked.flags }
    | cons fPool others =>
      obtain ⟨apart, rest⟩ := List.nodup_cons.mp nodup
      have differ : fPool ≠ address := (List.ne_of_not_mem_cons outside).symm
      have fresh : address ∉ others := List.not_mem_of_not_mem_cons outside
      obtain ⟨tPool, latest⟩ : ∃ tPool, destroying.tPool = some tPool := by
        rw [segment_head linked.chain]
        cases (fPool :: others).tail.reverse <;> exact ⟨_, rfl⟩
      rw [visit_later block latest linked.first differ]
      have chain := linked.chain
      rw [latest] at chain
      refine { first := rfl, chain := ?_, flags := ?_ }
      · show Segment (nexts ((destroying.list.setNext fPool _).setNext address _)) _ (others ++ [address]).reverse _
        rw [nexts_setNext, nexts_setNext, List.reverse_append]
        refine ⟨rfl, ?_⟩
        rw [Function.update_self]
        exact (segment_update (by simpa using fresh) _).mpr ((segment_update (by simpa using apart) _).mpr chain)
      · show flagsOf ((destroying.list.setNext fPool _).setNext address _) = _
        rw [flagsOf_setNext, flagsOf_setNext, linked.flags]
  · have own : blocksOf list [address] = [] :=
      List.filter_cons_of_neg (by rw [isBlock, ← flag]; simpa using block)
    rw [own, List.append_nil, visit_plain (not_not.mp block)]
    exact { first := linked.first, chain := linked.chain, flags := linked.flags }

/-- In the middle of the first loop: the nodes that it has cleaned, and those that are ahead. -/
structure Cleaning (heap : PoolHeap α) (destroying : Destroying α σ) (passed ahead : List Nat) : Prop where
  ahead : Ahead heap.list destroying ahead
  linked : BlocksLinked heap.list destroying (blocksOf heap.list passed)

theorem cleaning_visit {heap : PoolHeap α} {destroying : Destroying α σ} {passed ahead : List Nat} {address : Nat}
    (before : Cleaning heap destroying passed (address :: ahead)) (nodup : (passed ++ address :: ahead).Nodup) :
    Cleaning heap (destroying.visit cleaner address) (passed ++ [address]) ahead ∧
      (destroying.visit cleaner address).ctx = cleaner address (heap.list.node address) destroying.ctx := by
  obtain ⟨ahead, cleaned⟩ := @ahead_visit _ _ cleaner _ _ _ _ before.ahead
  have parts := List.nodup_append.mp nodup
  have outside : address ∉ blocksOf heap.list passed := by
    intro member
    exact parts.2.2 address (List.mem_of_mem_filter member) address List.mem_cons_self rfl
  have linked := @BlocksLinked.visit _ _ cleaner _ _ _ _ before.linked (parts.1.filter _) outside
  refine ⟨{ ahead, linked := ?_ }, cleaned⟩
  rw [blocksOf, List.filter_append]
  exact linked

theorem clean_all {heap : PoolHeap α} {destroying : Destroying α σ} {passed ahead : List Nat} {turns : Nat}
    (before : Cleaning heap destroying passed ahead) (nodup : (passed ++ ahead).Nodup)
    (reads : ∀ address ∈ ahead, heap.read address = .ok (heap.list.node address)) (enough : ahead.length < turns) :
    ∃ last, loop (Destroying.turn cleaner heap) turns destroying = some (.ok last) ∧
      Cleaning heap last (passed ++ ahead) [] ∧
      last.ctx = ahead.foldl (fun ctx address => cleaner address (heap.list.node address) ctx) destroying.ctx := by
  induction ahead generalizing destroying passed turns with
  | nil =>
    obtain ⟨turns, rfl⟩ : ∃ left, turns = left + 1 := ⟨turns - 1, by simp at enough; omega⟩
    have ends : destroying.pool = none := before.ahead.chain
    have turn : Destroying.turn cleaner heap destroying = .done (.ok destroying) := by simp only [Destroying.turn, ends]
    rw [List.append_nil]
    exact ⟨destroying, loop_done turn turns, before, rfl⟩
  | cons address ahead ih =>
    obtain ⟨turns, rfl⟩ : ∃ left, turns = left + 1 := ⟨turns - 1, by simp at enough; omega⟩
    obtain ⟨after, cleaned⟩ := @cleaning_visit _ _ cleaner _ _ _ _ _ before nodup
    have here : destroying.pool = some address := before.ahead.chain.1
    have turn : Destroying.turn cleaner heap destroying = .again (destroying.visit cleaner address) := by
      simp only [Destroying.turn, here, reads address List.mem_cons_self]
    rw [← List.singleton_append, ← List.append_assoc] at nodup ⊢
    obtain ⟨last, returned, cleaning, folded⟩ := ih after nodup
      (fun other member => reads other (List.mem_cons_of_mem address member)) (by simp at enough; omega)
    refine ⟨last, (loop_again turn turns).trans returned, cleaning, ?_⟩
    rw [folded, cleaned]
    rfl

end Linking

section Free

/-- The second loop frees the blocks that are linked, whatever else was freed before. -/
theorem free_all {heap : PoolHeap α} {pool : Option Nat} {heads : List Nat} {turns : Nat}
    (chain : Segment (nexts heap.list) pool heads none) (nodup : heads.Nodup)
    (starts : ∀ address ∈ heads, address ∈ heap.starts ∧ heap.home address = some address)
    (flags : ∀ address ∈ heads, isBlock heap.list address = true) (fresh : ∀ address ∈ heads, address ∉ heap.freed)
    (enough : heads.length < turns) :
    loop PoolHeap.freeTurn turns (heap, pool) = some (.ok { heap with freed := heap.freed ++ heads }) := by
  induction heads generalizing heap pool turns with
  | nil =>
    obtain ⟨turns, rfl⟩ : ∃ left, turns = left + 1 := ⟨turns - 1, by simp at enough; omega⟩
    have ends : pool = none := chain
    subst ends
    rw [List.append_nil]
    exact loop_done rfl turns
  | cons address heads ih =>
    obtain ⟨turns, rfl⟩ : ∃ left, turns = left + 1 := ⟨turns - 1, by simp at enough; omega⟩
    obtain ⟨here, rest⟩ := chain
    obtain ⟨outside, nodup⟩ := List.nodup_cons.mp nodup
    obtain ⟨start, own⟩ := starts address List.mem_cons_self
    have held := fresh address List.mem_cons_self
    have read : heap.read address = .ok (heap.list.node address) := by simp only [PoolHeap.read, own, if_neg held]
    have freed : heap.free address = .ok { heap with freed := heap.freed ++ [address] } := if_pos ⟨start, held⟩
    have block : (heap.list.node address).flags &&& apePoolAlloc ≠ 0#32 :=
      of_decide_eq_true (flags address List.mem_cons_self)
    have turn : PoolHeap.freeTurn (heap, pool) =
        .again ({ heap with freed := heap.freed ++ [address] }, (heap.list.node address).next) := by
      rw [here]
      simp only [PoolHeap.freeTurn, read, if_pos block, freed]
    rw [loop_again turn]
    have later := @ih { heap with freed := heap.freed ++ [address] } (heap.list.node address).next turns rest nodup
      (fun other member => starts other (List.mem_cons_of_mem address member))
      (fun other member => flags other (List.mem_cons_of_mem address member)) ?_ (by simp at enough; omega)
    · rw [later]
      simp
    · intro other member among
      rcases List.mem_append.mp among with old | new
      · exact fresh other (List.mem_cons_of_mem address member) old
      · rw [List.mem_singleton.mp new] at member
        exact outside member

end Free

section Destroy

variable {heap : PoolHeap α} {nodes : List Nat}

/-- What the destruction of a list amounts to: every node is cleaned, in their order, and every block is freed. -/
def DestroysAll (cleaner : Nat → PoolNode α → σ → σ) (heap : PoolHeap α) (ctx : σ) (nodes : List Nat)
    (destroyed : PoolHeap α × σ) : Prop :=
  destroyed.2 = nodes.foldl (fun ctx address => cleaner address (heap.list.node address) ctx) ctx ∧
    destroyed.1.freed.Perm heap.starts

/-- What the cleaner does is what the destruction of a list of jobs or packets says of it. -/
theorem DestroysAll.cleaned {ctx : σ} {destroyed : PoolHeap α × σ} (destroys : DestroysAll cleaner heap ctx nodes destroyed)
    (pools : Pools heap nodes) : destroyed.2 = apeDestroyPoolWithCleaner cleaner heap.list ctx :=
  destroys.1.trans (destroy_nodes pools.shape ctx).symm

theorem Pools.read (pools : Pools heap nodes) {address : Nat} (member : address ∈ nodes) :
    heap.read address = .ok (heap.list.node address) := by
  obtain ⟨start, home, -⟩ := pools.home_node member
  have none_freed : start ∉ heap.freed := by
    rw [pools.held]
    exact List.not_mem_nil
  simp only [PoolHeap.read, home, if_neg none_freed]

theorem Pools.destroy (pools : Pools heap nodes) (ctx : σ) {turns : Nat} (enough : heap.list.count < turns) :
    ∃ destroyed, heap.apeDestroyPoolWithCleaner cleaner turns heap.list.head ctx = some (.ok destroyed) ∧
      DestroysAll cleaner heap ctx nodes destroyed := by
  have short := pools.shape.short
  have before : @Cleaning α σ heap { list := heap.list, pool := heap.list.head, ctx } [] nodes := {
    ahead := { chain := pools.shape.chain, nodup := pools.shape.nodup, same := fun _ _ => rfl, blocks := .inl ⟨rfl, rfl⟩ }
    linked := { first := rfl, chain := rfl, flags := rfl } }
  obtain ⟨last, returned, after, folded⟩ := @clean_all _ _ cleaner _ _ _ _ turns before (by simpa using pools.shape.nodup)
    (fun _ member => pools.read member) (by omega)
  let heads := blocksOf heap.list nodes
  have linked : BlocksLinked heap.list last heads := after.linked
  have nodup : heads.Nodup := pools.shape.nodup.filter _
  let list := match last.fPool with
    | none => last.list
    | some fPool => last.list.setNext fPool none
  have flags : flagsOf list = flagsOf heap.list := by
    rw [← linked.flags]
    simp only [list]
    cases last.fPool with
    | none => rfl
    | some fPool => exact flagsOf_setNext _ _ _
  have chain : Segment (nexts list) last.tPool heads.reverse none := by
    have chain := linked.chain
    have first := linked.first
    simp only [list, first]
    generalize heads = heads at chain nodup
    cases heads with
    | nil => exact chain
    | cons fPool others =>
      have outside : fPool ∉ others.reverse := by
        rw [List.mem_reverse]
        exact (List.nodup_cons.mp nodup).1
      rw [List.reverse_cons]
      simp only [List.head?_cons, nexts_setNext]
      refine segment_append.mpr ⟨some fPool, (segment_update outside _).mpr chain, rfl, ?_⟩
      simp [Segment]
  have freed := @free_all α { heap with list } last.tPool heads.reverse turns chain (List.nodup_reverse.mpr nodup)
    (fun address member => ?_) (fun address member => ?_) (fun address member => ?_) ?_
  · refine ⟨({ heap with list, freed := heap.freed ++ heads.reverse }, last.ctx), ?_, folded, ?_⟩
    · unfold PoolHeap.apeDestroyPoolWithCleaner
      rw [returned]
      show (loop PoolHeap.freeTurn turns ({ heap with list }, last.tPool)).map _ = _
      rw [freed]
      rfl
    · show (heap.freed ++ heads.reverse).Perm _
      rw [pools.held, List.nil_append]
      exact (List.reverse_perm heads).trans pools.blocks
  · have among : address ∈ heap.starts := pools.blocks.mem_iff.mp (List.mem_reverse.mp member)
    exact ⟨among, pools.home_start among⟩
  · show isBlock list address = true
    rw [isBlock, flags]
    exact (List.mem_filter.mp (List.mem_reverse.mp member)).2
  · show address ∉ heap.freed
    rw [pools.held]
    exact List.not_mem_nil
  · have fewer : heads.length ≤ nodes.length := List.length_filter_le _ _
    rw [List.length_reverse]
    omega

end Destroy

section Runs

variable [Inhabited α] (setData : Option Nat → α → α) {n : Nat} {calls : List PoolCall}

/-- Wherever the heads of the blocks are, each node is cleaned once, each block freed once, and nothing read after that. -/
theorem pool_destroyed (cleaner : Nat → PoolNode α → σ → σ) (ctx : σ) (one : 1 ≤ n)
    (each : EachStep (PoolHeap.perform setData) (PoolHeap.apeInitPoolList n) calls CallsRotate) :
    ∃ heap nodes, runAll (PoolHeap.perform setData) (PoolHeap.apeInitPoolList n) calls = .ok heap ∧
      Shape heap.list nodes ∧ nodes.Perm heap.allocated ∧ heap.starts.Nodup ∧
      ∀ turns, heap.list.count < turns → ∃ destroyed,
        heap.apeDestroyPoolWithCleaner cleaner turns heap.list.head ctx = some (.ok destroyed) ∧
          DestroysAll cleaner heap ctx nodes destroyed := by
  obtain ⟨heap, reached, nodes, pools⟩ := run_pools setData one (fun _ _ _ _ rotates => rotates) each
  exact ⟨heap, nodes, reached, pools.shape, pools.all, pools.starts_nodup, fun turns enough => pools.destroy ctx enough⟩

/-- Two blocks, with the head of the second one between the nodes of the first. -/
def interleaved : List PoolCall := [.headToQueue, .grow 2, .headToCurrent, .headToQueue]

def visited (address : Nat) (_ : PoolNode (Option Nat)) (log : List Nat) : List Nat := log ++ [address]

theorem pool_destroyed_interleaved : ∃ heap nodes,
    runAll (PoolHeap.perform fun data _ => data) (PoolHeap.apeInitPoolList 2) interleaved = .ok heap ∧
      Shape heap.list nodes ∧ nodes.Perm heap.allocated ∧ heap.starts.Nodup ∧
      ∀ turns, heap.list.count < turns → ∃ destroyed,
        heap.apeDestroyPoolWithCleaner visited turns heap.list.head [] = some (.ok destroyed) ∧
          DestroysAll visited heap [] nodes destroyed :=
  pool_destroyed (fun data _ => data) visited [] (by decide) (each_of_check (by decide))

end Runs

end ZapeProof
