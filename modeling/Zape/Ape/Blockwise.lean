import Zape.Ape.Destroying

/-! `ape_destroy_pool_ordered`, which frees a block when it comes to the head of the next one. -/
namespace ZapeModel

open Machine

variable {α σ : Type}

structure DestroyingOrdered (α σ : Type) where
  heap : PoolHeap α
  pool : Option Nat
  tPool : Option Nat := none
  ctx : σ

def PoolHeap.freePrevious (heap : PoolHeap α) : Option Nat → Except Fault (PoolHeap α)
  | none => .ok heap
  | some tPool => heap.free tPool

variable (cleaner : Nat → PoolNode α → σ → σ)

def DestroyingOrdered.visit (destroying : DestroyingOrdered α σ) (pool : Nat) :
    Except Fault (DestroyingOrdered α σ) :=
  (destroying.heap.read pool).bind fun node =>
    let ctx := cleaner pool node destroying.ctx
    if node.flags &&& apePoolAlloc ≠ 0#32 then
      (destroying.heap.freePrevious destroying.tPool).bind fun heap =>
        -- `pool->next` is read after that `free`
        (heap.read pool).map fun node => { heap, pool := node.next, tPool := some pool, ctx }
    else .ok { destroying with pool := node.next, ctx }

def DestroyingOrdered.turn (destroying : DestroyingOrdered α σ) :
    Turn (DestroyingOrdered α σ) (Except Fault (PoolHeap α × σ)) :=
  match destroying.pool with
  | none => .done ((destroying.heap.freePrevious destroying.tPool).map fun heap => (heap, destroying.ctx))
  | some pool =>
    match destroying.visit cleaner pool with
    | .error fault => .done (.error fault)
    | .ok next => .again next

def PoolHeap.apeDestroyPoolOrdered (turns : Nat) (heap : PoolHeap α) (pool : Option Nat) (ctx : σ) :
    Option (Except Fault (PoolHeap α × σ)) :=
  loop (DestroyingOrdered.turn cleaner) turns { heap, pool, ctx }

end ZapeModel

namespace ZapeProof

open Machine ZapeModel

variable {α σ : Type} {cleaner : Nat → PoolNode α → σ → σ}

/-- No node of a block comes behind the head of another one that comes behind its own. -/
def BlocksFollow (heap : PoolHeap α) (nodes : List Nat) : Prop :=
  ∀ front start middle other rest, nodes = front ++ start :: (middle ++ other :: rest) → start ∈ heap.starts →
    other ∈ heap.starts → ∀ address ∈ rest, heap.home address ≠ some start

section Visit

variable {heap : PoolHeap α} {passed ahead : List Nat} {address : Nat}

/-- The loop after these nodes, with those ahead: the latest block is kept, those before it are freed. -/
def orderedAt (heap : PoolHeap α) (passed ahead : List Nat) (ctx : σ) : DestroyingOrdered α σ where
  heap := { heap with freed := (blocksOf heap.list passed).dropLast }
  pool := ahead.head?
  tPool := (blocksOf heap.list passed).getLast?
  ctx := ctx

/-- The node lies in a block that is freed by then. -/
def Lost (heap : PoolHeap α) (passed : List Nat) (address : Nat) : Prop :=
  ∃ start, heap.home address = some start ∧ start ∈ (blocksOf heap.list passed).dropLast

theorem blocksOf_snoc (list : PoolList α) (passed : List Nat) (address : Nat) :
    blocksOf list (passed ++ [address]) = blocksOf list passed ++ if isBlock list address then [address] else [] := by
  rw [blocksOf, List.filter_append, List.filter_singleton, Bool.cond_eq_ite]
  rfl

theorem freePrevious_latest (pools : Pools heap (passed ++ ahead)) :
    ({ heap with freed := (blocksOf heap.list passed).dropLast } : PoolHeap α).freePrevious
        (blocksOf heap.list passed).getLast? = .ok { heap with freed := blocksOf heap.list passed } := by
  have started : ∀ start ∈ blocksOf heap.list passed, start ∈ heap.starts := by
    intro start member
    apply pools.blocks.mem_iff.mp
    rw [blocksOf, List.filter_append]
    exact List.mem_append_left _ member
  have nodup : (blocksOf heap.list passed).Nodup := (List.nodup_append.mp pools.shape.nodup).1.filter _
  rcases List.eq_nil_or_concat (blocksOf heap.list passed) with none | ⟨heads, last, some⟩
  · rw [none]
    rfl
  · rw [List.concat_eq_append] at some
    rw [some] at started nodup ⊢
    have fresh : last ∉ heads := fun member => (List.nodup_append.mp nodup).2.2 _ member _ (by simp) rfl
    rw [List.getLast?_append, List.dropLast_concat]
    exact if_pos ⟨started last (by simp), fresh⟩

theorem node_lost {freed : List Nat} {start : Nat} (home : heap.home address = some start) (lost : start ∈ freed) :
    ({ heap with freed } : PoolHeap α).read address = .error .wildPointer := by
  have same : ({ heap with freed } : PoolHeap α).home address = some start := home
  simp only [PoolHeap.read, same, if_pos lost]

theorem node_kept {freed : List Nat} {start : Nat} (home : heap.home address = some start) (kept : start ∉ freed) :
    ({ heap with freed } : PoolHeap α).read address = .ok (heap.list.node address) := by
  have same : ({ heap with freed } : PoolHeap α).home address = some start := home
  simp only [PoolHeap.read, same, if_neg kept]

theorem visit_lost (ctx : σ) (lost : Lost heap passed address) :
    (orderedAt heap passed (address :: ahead) ctx).visit cleaner address = .error .wildPointer := by
  obtain ⟨start, home, freed⟩ := lost
  unfold DestroyingOrdered.visit
  rw [show (orderedAt heap passed (address :: ahead) ctx).heap.read address = _ from node_lost home freed]
  rfl

theorem visit_kept (pools : Pools heap (passed ++ address :: ahead)) (ctx : σ) (kept : ¬ Lost heap passed address) :
    (orderedAt heap passed (address :: ahead) ctx).visit cleaner address =
      .ok (orderedAt heap (passed ++ [address]) ahead (cleaner address (heap.list.node address) ctx)) := by
  have follows : (heap.list.node address).next = ahead.head? := pools.shape.next
  obtain ⟨start, home, -⟩ := pools.home_node (List.mem_append_right passed List.mem_cons_self)
  have live : start ∉ (blocksOf heap.list passed).dropLast := fun freed => kept ⟨start, home, freed⟩
  unfold DestroyingOrdered.visit
  rw [show (orderedAt heap passed (address :: ahead) ctx).heap.read address = _ from node_kept home live]
  show (if _ then _ else _) = _
  unfold orderedAt
  rw [blocksOf_snoc]
  by_cases block : (heap.list.node address).flags &&& apePoolAlloc ≠ 0#32
  · have own : isBlock heap.list address = true := decide_eq_true block
    have among : address ∈ heap.starts := by
      apply pools.blocks.mem_iff.mp
      exact List.mem_filter.mpr ⟨by simp, own⟩
    have fresh : address ∉ blocksOf heap.list passed := by
      intro member
      exact (List.nodup_append.mp pools.shape.nodup).2.2 _ (List.mem_of_mem_filter member) _ List.mem_cons_self rfl
    rw [if_pos block, if_pos own, freePrevious_latest pools]
    show (PoolHeap.read _ address).map _ = _
    rw [node_kept (pools.home_start among) fresh, List.dropLast_concat, List.getLast?_append]
    simp only [Except.map, follows]
    rfl
  · have plain : ¬ isBlock heap.list address = true := fun own => block (of_decide_eq_true own)
    rw [if_neg block, if_neg plain, List.append_nil, follows]

end Visit

section Loop

variable {heap : PoolHeap α} {passed ahead : List Nat} {turns : Nat}

theorem ordered_again {address : Nat} {destroying next : DestroyingOrdered α σ} (here : destroying.pool = some address)
    (visited : destroying.visit cleaner address = .ok next) : destroying.turn cleaner = .again next := by
  simp only [DestroyingOrdered.turn, here, visited]

theorem ordered_all (pools : Pools heap (passed ++ ahead)) (ctx : σ) (enough : ahead.length < turns)
    (kept : ∀ front address rest, ahead = front ++ address :: rest → ¬ Lost heap (passed ++ front) address) :
    loop (DestroyingOrdered.turn cleaner) turns (orderedAt heap passed ahead ctx) =
      some (.ok ({ heap with freed := blocksOf heap.list (passed ++ ahead) },
        ahead.foldl (fun ctx address => cleaner address (heap.list.node address) ctx) ctx)) := by
  induction ahead generalizing passed ctx turns with
  | nil =>
    obtain ⟨turns, rfl⟩ : ∃ left, turns = left + 1 := ⟨turns - 1, by simp at enough; omega⟩
    apply loop_done
    have freed := freePrevious_latest pools
    simp only [DestroyingOrdered.turn, orderedAt, List.head?_nil, freed, List.append_nil]
    rfl
  | cons address ahead ih =>
    obtain ⟨turns, rfl⟩ : ∃ left, turns = left + 1 := ⟨turns - 1, by simp at enough; omega⟩
    have here : ¬ Lost heap passed address := by
      have first := kept [] address ahead rfl
      rwa [List.append_nil] at first
    rw [loop_again (ordered_again rfl (visit_kept pools ctx here))]
    have split : passed ++ address :: ahead = (passed ++ [address]) ++ ahead := by simp
    rw [split] at pools ⊢
    apply ih pools
    · simp at enough
      omega
    · intro front other rest split
      have later := kept (address :: front) other rest (by rw [split]; rfl)
      rwa [← List.append_cons]

theorem ordered_lost (pools : Pools heap (passed ++ ahead)) (ctx : σ) (enough : ahead.length < turns)
    {front rest : List Nat} {address : Nat} (split : ahead = front ++ address :: rest)
    (lost : Lost heap (passed ++ front) address) :
    loop (DestroyingOrdered.turn cleaner) turns (orderedAt heap passed ahead ctx) = some (.error .wildPointer) := by
  induction ahead generalizing passed front ctx turns with
  | nil => simp at split
  | cons first ahead ih =>
    obtain ⟨turns, rfl⟩ : ∃ left, turns = left + 1 := ⟨turns - 1, by simp at enough; omega⟩
    by_cases here : Lost heap passed first
    · apply loop_done
      have visited := @visit_lost _ _ cleaner _ _ ahead _ ctx here
      simp only [DestroyingOrdered.turn, orderedAt, List.head?_cons] at visited ⊢
      rw [visited]
    · rw [loop_again (ordered_again rfl (visit_kept pools ctx here))]
      cases front with
      | nil =>
        cases split
        rw [List.append_nil] at lost
        exact absurd lost here
      | cons other front =>
        obtain ⟨rfl, behind⟩ := List.cons_eq_cons.mp split
        have whole : passed ++ first :: ahead = (passed ++ [first]) ++ ahead := by simp
        rw [whole] at pools
        apply ih pools
        · simp at enough
          omega
        · exact behind
        · rwa [← List.append_cons]

end Loop

section Condition

variable {heap : PoolHeap α} {nodes front : List Nat} {start : Nat}

/-- All heads but the latest have another one behind them. -/
theorem mem_dropLast_blocks :
    start ∈ (blocksOf heap.list front).dropLast ↔ ∃ before middle other rest,
      front = before ++ start :: (middle ++ other :: rest) ∧ isBlock heap.list start = true ∧
        isBlock heap.list other = true := by
  constructor
  · intro member
    obtain ⟨left, right, split⟩ := List.append_of_mem member
    have filled : blocksOf heap.list front ≠ [] := by
      rintro empty
      rw [empty] at member
      cases member
    have whole := List.dropLast_append_getLast filled
    generalize (blocksOf heap.list front).getLast filled = latest at whole
    rw [split, List.append_assoc, List.cons_append] at whole
    obtain ⟨before, behind, rfl, -, after⟩ := List.filter_eq_append_iff.mp whole.symm
    obtain ⟨skipped, later, rfl, -, first, others⟩ := List.filter_eq_cons_iff.mp after
    obtain ⟨plain, rest, rfl, -, last⟩ := List.filter_eq_append_iff.mp others
    obtain ⟨between, rest, rfl, -, second, -⟩ := List.filter_eq_cons_iff.mp last
    exact ⟨before ++ skipped, plain ++ between, _, rest, by simp, first, second⟩
  · rintro ⟨before, middle, other, rest, rfl, first, second⟩
    have split : blocksOf heap.list (before ++ start :: (middle ++ other :: rest)) =
        (blocksOf heap.list before ++ start :: blocksOf heap.list middle) ++ other :: blocksOf heap.list rest := by
      simp [blocksOf, first, second]
    rw [split, List.dropLast_append_of_ne_nil (List.cons_ne_nil _ _)]
    simp

theorem Pools.isBlock_iff (pools : Pools heap nodes) {address : Nat} (member : address ∈ nodes) :
    isBlock heap.list address = true ↔ address ∈ heap.starts := by
  rw [← pools.blocks.mem_iff, blocksOf, List.mem_filter]
  simp [member]

theorem Pools.follow_iff (pools : Pools heap nodes) :
    BlocksFollow heap nodes ↔
      ∀ front address rest, nodes = front ++ address :: rest → ¬ Lost heap ([] ++ front) address := by
  constructor
  · rintro follow front address rest rfl ⟨start, home, freed⟩
    obtain ⟨before, middle, other, between, rfl, first, second⟩ := mem_dropLast_blocks.mp freed
    have started := (pools.isBlock_iff (by simp)).mp first
    have begun := (pools.isBlock_iff (by simp)).mp second
    exact follow before start middle other (between ++ address :: rest) (by simp) started begun address (by simp) home
  · rintro kept front start middle other rest rfl started begun address member home
    obtain ⟨between, behind, rfl⟩ := List.append_of_mem member
    have first := (pools.isBlock_iff (show start ∈ _ by simp)).mpr started
    have second := (pools.isBlock_iff (show other ∈ _ by simp)).mpr begun
    apply kept (front ++ start :: (middle ++ other :: between)) address behind (by simp)
    exact ⟨start, home, mem_dropLast_blocks.mpr ⟨front, middle, other, between, rfl, first, second⟩⟩

end Condition

section Runs

variable [Inhabited α] (setData : Option Nat → α → α) {n : Nat} {calls : List PoolCall}

/-- A block is freed at the head of the next one, and a node of it may still come. -/
theorem pool_destroyed_ordered_iff (cleaner : Nat → PoolNode α → σ → σ) (ctx : σ) (one : 1 ≤ n)
    (each : EachStep (PoolHeap.perform setData) (PoolHeap.apeInitPoolList n) calls CallsRotate) :
    ∃ heap nodes, runAll (PoolHeap.perform setData) (PoolHeap.apeInitPoolList n) calls = .ok heap ∧
      Shape heap.list nodes ∧ nodes.Perm heap.allocated ∧
      ∀ turns, heap.list.count < turns →
        ((∃ destroyed, heap.apeDestroyPoolOrdered cleaner turns heap.list.head ctx = some (.ok destroyed) ∧
          DestroysAll cleaner heap ctx nodes destroyed) ↔ BlocksFollow heap nodes) := by
  obtain ⟨heap, reached, nodes, pools⟩ := run_pools setData one (fun _ _ _ _ rotates => rotates) each
  refine ⟨heap, nodes, reached, pools.shape, pools.all, fun turns enough => ?_⟩
  have short := pools.shape.short
  have start : ({ heap, pool := heap.list.head, ctx } : DestroyingOrdered α σ) = orderedAt heap [] nodes ctx := by
    have head := segment_head pools.shape.chain
    rw [Option.or_none] at head
    have same : heap = { heap with freed := [] } := by rw [← pools.held]
    unfold orderedAt
    rw [head]
    exact congrArg (fun heap => ({ heap, pool := nodes.head?, ctx } : DestroyingOrdered α σ)) same
  unfold PoolHeap.apeDestroyPoolOrdered
  rw [start, pools.follow_iff]
  constructor
  · rintro ⟨destroyed, returned, -⟩ front address rest split lost
    rw [ordered_lost pools ctx (by omega) split lost] at returned
    cases returned
  · intro kept
    have done := @ordered_all _ _ cleaner _ [] nodes turns pools ctx (by omega) kept
    exact ⟨_, done, rfl, pools.blocks⟩

theorem pool_destroyed_ordered_interleaved : ∃ heap nodes,
    runAll (PoolHeap.perform fun data _ => data) (PoolHeap.apeInitPoolList 2) interleaved = .ok heap ∧
      Shape heap.list nodes ∧ nodes.Perm heap.allocated ∧
      ∀ turns, heap.list.count < turns →
        ((∃ destroyed, heap.apeDestroyPoolOrdered visited turns heap.list.head [] = some (.ok destroyed) ∧
          DestroysAll visited heap [] nodes destroyed) ↔ BlocksFollow heap nodes) :=
  pool_destroyed_ordered_iff (fun data _ => data) visited [] (by decide) (each_of_check (by decide))

/-- The second rotation brings the other node of the first block behind the head of the second block. -/
def rotatedTwice : List PoolCall := [.headToQueue, .grow 2, .headToQueue]

theorem rotatedTwice_lost : ∃ heap,
    EachStep (PoolHeap.perform fun data _ => data) (PoolHeap.apeInitPoolList 2) rotatedTwice CallsRotate ∧
      runAll (PoolHeap.perform fun data _ => data) (PoolHeap.apeInitPoolList 2) rotatedTwice = .ok heap ∧
      heap.apeDestroyPoolOrdered visited 5 heap.list.head [] = some (.error .wildPointer) :=
  ⟨_, each_of_check (by decide), rfl, rfl⟩

end Runs

end ZapeProof
