import Zape.Ape.Graceful

/-! `ape_socket_free`: what is still queued is cleaned away with the list of the jobs. -/
namespace ZapeModel

open Machine

section Destroy

variable {α σ : Type}

/-- `ape_destroy_pool_with_cleaner` in its first loop, with its local variables. -/
structure Destroying (α σ : Type) where
  list : PoolList α
  pool : Option Nat
  tPool : Option Nat := none
  fPool : Option Nat := none
  ctx : σ

variable (cleaner : Nat → PoolNode α → σ → σ)

/-- One turn of that loop. The blocks that it has passed are linked to each other, to be freed afterwards. -/
def Destroying.visit (destroying : Destroying α σ) (pool : Nat) : Destroying α σ :=
  let node := destroying.list.node pool
  let ctx := cleaner pool node destroying.ctx
  if node.flags &&& apePoolAlloc ≠ 0#32 then
    let fPool := destroying.fPool.getD pool
    match destroying.tPool with
    | none => { destroying with pool := node.next, tPool := some pool, fPool := some fPool, ctx }
    | some tPool =>
      let list := (destroying.list.setNext fPool node.next).setNext pool (some tPool)
      { list, pool := (list.node fPool).next, tPool := some pool, fPool := some fPool, ctx }
  else { destroying with pool := node.next, ctx }

def destroyNodes : Nat → Destroying α σ → σ
  | 0, destroying => destroying.ctx
  | nodes + 1, destroying =>
    match destroying.pool with
    | none => destroying.ctx
    | some pool => destroyNodes nodes (destroying.visit cleaner pool)

/-- `ape_destroy_pool_with_cleaner` on a whole list, up to the memory of the pool itself. -/
def apeDestroyPoolWithCleaner (list : PoolList α) (ctx : σ) : σ :=
  destroyNodes cleaner list.count { list, pool := list.head, ctx }

end Destroy

/-- A socket that is freed, and the slots of the jobs whose packet lists were destroyed. -/
structure Freeing where
  world : World
  destroyed : List Nat := []

def apeSocketPacketPoolCleaner (_ : Nat) (packet : PoolNode Packet) (world : World) : World :=
  match packet.content.data with
  | none => world
  | some _ =>
    { world with totalMemoryBuffered := world.totalMemoryBuffered - (packet.content.len - packet.content.offset) }.emit
      (apeSocketReleaseData packet.content.pointer packet.content.dataType)

def apeSocketJobPoolCleaner (slot : Nat) (job : PoolNode Job) (freeing : Freeing) : Except Fault Freeing :=
  if job.active then
    let type := job.flags &&& ~~~(apePoolAllFlags ||| apeSocketJobActive)
    if type = apeSocketJobWritev then
      match job.content with
      | .null => .error .nullDereference
      | .fd _ => .error .wildPointer
      | .data plist =>
        .ok { world := apeDestroyPoolWithCleaner apeSocketPacketPoolCleaner plist freeing.world
              destroyed := freeing.destroyed ++ [slot] }
    else if type = apeSocketJobSendfile then
      match job.content with
      | .fd fd => .ok { freeing with world := freeing.world.emit [.closeFile fd] }
      | _ => .error .wildPointer
    else .ok freeing
  else .ok freeing

def World.apeSocketFree (world : World) : Except Fault Freeing :=
  apeDestroyPoolWithCleaner (fun slot job freeing => freeing.bind (apeSocketJobPoolCleaner slot job)) world.socket.jobs
    (.ok { world })

end ZapeModel

namespace ZapeProof

open Machine ZapeModel

section Destroy

variable {α σ : Type} {cleaner : Nat → PoolNode α → σ → σ}

/-- In the middle of the loop: the nodes ahead are as they were, and the first block is not one of them. -/
structure Ahead (list : PoolList α) (destroying : Destroying α σ) (ahead : List Nat) : Prop where
  chain : Segment (nexts destroying.list) destroying.pool ahead none
  nodup : ahead.Nodup
  same : ∀ address ∈ ahead, destroying.list.node address = list.node address
  blocks : destroying.tPool = none ∧ destroying.fPool = none ∨
    ∃ tPool fPool, destroying.tPool = some tPool ∧ destroying.fPool = some fPool ∧ fPool ∉ ahead

theorem node_setNext {list : PoolList α} {address other : Nat} (next : Option Nat) (differ : other ≠ address) :
    (list.setNext address next).node other = list.node other := Function.update_of_ne differ _ _

section Visit

variable {destroying : Destroying α σ} {address tPool fPool : Nat}

theorem visit_plain (plain : (destroying.list.node address).flags &&& apePoolAlloc = 0#32) :
    destroying.visit cleaner address =
      { destroying with pool := (destroying.list.node address).next,
                        ctx := cleaner address (destroying.list.node address) destroying.ctx } := by
  have skipped : ¬ (destroying.list.node address).flags &&& apePoolAlloc ≠ 0#32 := fun block => block plain
  simp only [Destroying.visit, if_neg skipped]

theorem visit_first (block : (destroying.list.node address).flags &&& apePoolAlloc ≠ 0#32)
    (linked : destroying.tPool = none) (first : destroying.fPool = none) :
    destroying.visit cleaner address =
      { destroying with pool := (destroying.list.node address).next, tPool := some address, fPool := some address,
                        ctx := cleaner address (destroying.list.node address) destroying.ctx } := by
  simp only [Destroying.visit, if_pos block, linked, first, Option.getD_none]

/-- A further block is linked in front of the one before, and the loop goes on where it led to. -/
theorem visit_later (block : (destroying.list.node address).flags &&& apePoolAlloc ≠ 0#32)
    (linked : destroying.tPool = some tPool) (first : destroying.fPool = some fPool) (apart : fPool ≠ address) :
    destroying.visit cleaner address =
      { list := (destroying.list.setNext fPool (destroying.list.node address).next).setNext address (some tPool),
        pool := (destroying.list.node address).next, tPool := some address, fPool := some fPool,
        ctx := cleaner address (destroying.list.node address) destroying.ctx } := by
  let next := (destroying.list.node address).next
  let relinked := (destroying.list.setNext fPool next).setNext address (some tPool)
  have follows : (relinked.node fPool).next = next := by
    rw [show relinked.node fPool = _ from node_setNext _ apart]
    simp [PoolList.setNext, PoolList.modify]
  simp only [Destroying.visit, if_pos block, linked, first, Option.getD_some, Destroying.mk.injEq, and_true]
  exact ⟨trivial, follows⟩

end Visit

theorem ahead_visit {list : PoolList α} {destroying : Destroying α σ} {address : Nat} {ahead : List Nat}
    (before : Ahead list destroying (address :: ahead)) :
    Ahead list (destroying.visit cleaner address) ahead ∧
      (destroying.visit cleaner address).ctx = cleaner address (list.node address) destroying.ctx := by
  obtain ⟨-, rest⟩ := before.chain
  obtain ⟨outside, nodup⟩ := List.nodup_cons.mp before.nodup
  have own := before.same address List.mem_cons_self
  have same : ∀ other ∈ ahead, destroying.list.node other = list.node other :=
    fun other member => before.same other (List.mem_cons_of_mem address member)
  by_cases block : (destroying.list.node address).flags &&& apePoolAlloc ≠ 0#32
  · rcases before.blocks with ⟨none, first⟩ | ⟨tPool, fPool, linked, first, passed⟩
    · rw [visit_first block none first]
      exact ⟨{ chain := rest, nodup, same, blocks := .inr ⟨address, address, rfl, rfl, outside⟩ },
        congrArg (cleaner address · _) own⟩
    · have apart : fPool ≠ address := List.ne_of_not_mem_cons passed
      have behind : fPool ∉ ahead := List.not_mem_of_not_mem_cons passed
      rw [visit_later block linked first apart]
      refine ⟨{ chain := ?_, nodup, same := ?_, blocks := .inr ⟨address, fPool, rfl, rfl, behind⟩ },
        congrArg (cleaner address · _) own⟩
      · show Segment (nexts ((destroying.list.setNext fPool _).setNext address _)) _ ahead none
        rw [nexts_setNext, nexts_setNext]
        exact (segment_update outside _).mpr ((segment_update behind _).mpr rest)
      · intro other member
        have differ : other ≠ address := ne_of_mem_of_not_mem member outside
        have other_block : other ≠ fPool := ne_of_mem_of_not_mem member behind
        rw [node_setNext _ differ, node_setNext _ other_block]
        exact same other member
  · rw [visit_plain (not_not.mp block)]
    refine ⟨{ chain := rest, nodup, same, blocks := before.blocks.imp id ?_ }, congrArg (cleaner address · _) own⟩
    rintro ⟨tPool, fPool, linked, first, passed⟩
    exact ⟨tPool, fPool, linked, first, List.not_mem_of_not_mem_cons passed⟩

theorem destroy_ahead {list : PoolList α} {destroying : Destroying α σ} {ahead : List Nat} {nodes : Nat}
    (before : Ahead list destroying ahead) (enough : ahead.length ≤ nodes) :
    destroyNodes cleaner nodes destroying =
      ahead.foldl (fun ctx address => cleaner address (list.node address) ctx) destroying.ctx := by
  induction ahead generalizing destroying nodes with
  | nil =>
    have ends : destroying.pool = none := before.chain
    cases nodes with
    | zero => rfl
    | succ nodes => simp only [destroyNodes, ends, List.foldl_nil]
  | cons address ahead ih =>
    obtain ⟨nodes, rfl⟩ : ∃ left, nodes = left + 1 := ⟨nodes - 1, by simp at enough; omega⟩
    obtain ⟨after, cleaned⟩ := @ahead_visit _ _ cleaner _ _ _ _ before
    have here : destroying.pool = some address := before.chain.1
    simp only [destroyNodes, here, List.foldl_cons, ← cleaned]
    exact ih after (by simpa using enough)

theorem Shape.short {list : PoolList α} {nodes : List Nat} (shape : Shape list nodes) : nodes.length ≤ list.count := by
  have below : nodes ⊆ List.range list.count := fun address member => List.mem_range.mpr (shape.below address member)
  simpa using (List.subperm_of_subset shape.nodup below).length_le

/-- The cleaner comes to every node of the list, once and in the order of the list. -/
theorem destroy_nodes {list : PoolList α} {nodes : List Nat} (shape : Shape list nodes) (ctx : σ) :
    apeDestroyPoolWithCleaner cleaner list ctx =
      nodes.foldl (fun ctx address => cleaner address (list.node address) ctx) ctx :=
  destroy_ahead { chain := shape.chain, nodup := shape.nodup, same := fun _ _ => rfl, blocks := .inl ⟨rfl, rfl⟩ } shape.short

end Destroy

end ZapeProof
