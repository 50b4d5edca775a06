import Zape.Ape.Pool
import Zape.Machine.Segment

/-! A pool list as the sequence of its nodes. -/
namespace ZapeProof

open Machine ZapeModel

variable {α : Type}

def nexts (list : PoolList α) : Nat → Option Nat := fun address => (list.node address).next

def contents (list : PoolList α) : Nat → α := fun address => (list.node address).content

/-- Following `next` from the head leads through these nodes, all different, and ends with the queue. -/
structure Shape (list : PoolList α) (nodes : List Nat) : Prop where
  chain : Segment (nexts list) list.head nodes none
  nodup : nodes.Nodup
  below : ∀ address ∈ nodes, address < list.count
  queue : nodes.getLast? = some list.queue

section Modify

variable {β : Type} (list : PoolList α) (address : Nat)

theorem modify_field (field : PoolNode α → β) (change : PoolNode α → PoolNode α) :
    (fun other => field ((list.modify address change).node other)) =
      Function.update (fun other => field (list.node other)) address (field (change (list.node address))) := by
  funext other
  by_cases same : other = address
  · subst same
    simp [PoolList.modify]
  · simp [PoolList.modify, same]

@[simp] theorem nexts_setNext (next : Option Nat) :
    nexts (list.setNext address next) = Function.update (nexts list) address next :=
  modify_field list address PoolNode.next _

@[simp] theorem nexts_setPrev (prev : Option Nat) : nexts (list.setPrev address prev) = nexts list :=
  (modify_field list address PoolNode.next _).trans (Function.update_eq_self address (nexts list))

@[simp] theorem nexts_setContent (content : α) : nexts (list.setContent address content) = nexts list :=
  (modify_field list address PoolNode.next _).trans (Function.update_eq_self address (nexts list))

@[simp] theorem contents_setNext (next : Option Nat) : contents (list.setNext address next) = contents list :=
  (modify_field list address PoolNode.content _).trans (Function.update_eq_self address (contents list))

@[simp] theorem contents_setPrev (prev : Option Nat) : contents (list.setPrev address prev) = contents list :=
  (modify_field list address PoolNode.content _).trans (Function.update_eq_self address (contents list))

@[simp] theorem contents_setContent (content : α) :
    contents (list.setContent address content) = Function.update (contents list) address content :=
  modify_field list address PoolNode.content _

end Modify

section Read

variable {list : PoolList α}

theorem Shape.next {front rest : List Nat} {address : Nat} (shape : Shape list (front ++ address :: rest)) :
    (list.node address).next = rest.head? := by
  rcases segment_append.mp shape.chain with ⟨_, -, -, after⟩
  cases rest with
  | nil => exact after
  | cons other rest => exact after.1

theorem shape_setContent {nodes : List Nat} (shape : Shape list nodes) (address : Nat) (content : α) :
    Shape (list.setContent address content) nodes where
  chain := by
    rw [nexts_setContent]
    exact shape.chain
  nodup := shape.nodup
  below := shape.below
  queue := shape.queue

end Read

section Grow

variable [Inhabited α]

theorem newPool_chain (node : Nat → PoolNode α) {pool n address left : Nat} (inside : pool ≤ address)
    (ends : address + left = pool + n) :
    Segment (fun other => (apeNewPool node pool n other).next) (if left = 0 then none else some address)
      (List.range' address left) none := by
  induction left generalizing address with
  | zero => rfl
  | succ left ih =>
    have within : pool ≤ address ∧ address < pool + n := by omega
    have later := @ih (address + 1) (by omega) (by omega)
    have last : address + 1 = pool + n ↔ left = 0 := by omega
    refine ⟨rfl, ?_⟩
    simp only [apeNewPool, if_pos within, last]
    exact later

theorem shape_init {n : Nat} (positive : 0 < n) : Shape (apeInitPoolList n : PoolList α) (List.range' 0 n) where
  chain := by
    have block := @newPool_chain α _ (fun _ => { content := default }) 0 n 0 n (by omega) (by omega)
    rw [if_neg (by omega)] at block
    exact block
  nodup := List.nodup_range'
  below := by
    intro address member
    rw [List.mem_range'_1] at member
    show address < n
    omega
  queue := by
    rw [List.getLast?_range', if_neg (by omega)]
    simp [apeInitPoolList]

theorem nexts_grow (list : PoolList α) (n : Nat) :
    nexts (apeGrowPool list n).1 =
      Function.update (fun address => (apeNewPool list.node list.count n address).next) list.queue (some list.count) := by
  let grown : PoolList α := { list with node := apeNewPool list.node list.count n, count := list.count + n }
  have linked := nexts_setPrev (grown.setNext list.queue (some list.count)) list.count (some list.queue)
  rw [nexts_setNext] at linked
  exact linked

theorem shape_grow {list : PoolList α} {nodes : List Nat} (shape : Shape list nodes) {n : Nat} (positive : 0 < n) :
    Shape (apeGrowPool list n).1 (nodes ++ List.range' list.count n) where
  chain := by
    obtain ⟨front, rfl⟩ := List.getLast?_eq_some_iff.mp shape.queue
    have fresh : list.queue ∉ front := by
      have apart := List.nodup_append.mp shape.nodup
      intro member
      exact apart.2.2 _ member _ (by simp) rfl
    have old := segment_redirect shape.chain fresh (some list.count)
    have outside : list.queue < list.count := shape.below list.queue (by simp)
    rw [nexts_grow]
    refine segment_append.mpr ⟨some list.count, ?_, ?_⟩
    · apply (segment_congr ?_).mp old
      intro address member
      have below := shape.below address member
      have before : ¬ (list.count ≤ address ∧ address < list.count + n) := by omega
      by_cases last : address = list.queue
      · simp [last]
      · simp [last, nexts, apeNewPool, before]
    · have block := @newPool_chain α _ list.node list.count n list.count n (by omega) rfl
      rw [if_neg (by omega)] at block
      apply (segment_update ?_ _).mpr block
      rw [List.mem_range'_1]
      omega
  nodup := by
    apply List.nodup_append.mpr
    refine ⟨shape.nodup, List.nodup_range', ?_⟩
    intro old member new fresh same
    have below := shape.below old member
    rw [List.mem_range'_1] at fresh
    omega
  below := by
    intro address member
    show address < list.count + n
    rcases List.mem_append.mp member with old | new
    · have below := shape.below address old
      omega
    · rw [List.mem_range'_1] at new
      omega
  queue := by
    rw [List.getLast?_append, List.getLast?_range', if_neg (by omega)]
    simp [apeGrowPool]
    omega

theorem contents_grow (list : PoolList α) (n address : Nat) :
    contents (apeGrowPool list n).1 address =
      if list.count ≤ address ∧ address < list.count + n then default else contents list address := by
  let grown : PoolList α := { list with node := apeNewPool list.node list.count n, count := list.count + n }
  have linked := contents_setPrev (grown.setNext list.queue (some list.count)) list.count (some list.queue)
  rw [contents_setNext] at linked
  have same : contents (apeGrowPool list n).1 address = contents grown address := congrFun linked address
  rw [same]
  by_cases inside : list.count ≤ address ∧ address < list.count + n
  · simp [contents, grown, apeNewPool, inside]
  · simp [contents, grown, apeNewPool, inside]

end Grow

section Rotate

theorem headToQueue_shape {list : PoolList α} {head second : Nat} {rest : List Nat}
    (shape : Shape list (head :: second :: rest)) :
    ∃ moved, apePoolHeadToQueue list = .ok (moved, some second) ∧ Shape moved (second :: rest ++ [head]) ∧
      contents moved = contents list ∧ moved.current = list.current ∧ moved.count = list.count := by
  obtain ⟨start, chain⟩ := shape.chain
  have follows : nexts list head = some second := chain.1
  let turned := (list.setNext list.queue (some head)).setNext head none
  refine ⟨{ turned with head := some second, queue := head }, ?_, ?_, ?_, rfl, rfl⟩
  · have next : (list.node head).next = some second := follows
    rw [apePoolHeadToQueue, start]
    simp only [next]
    rfl
  · obtain ⟨front, split⟩ : ∃ front, second :: rest = front ++ [list.queue] := by
      have last := shape.queue
      rw [List.getLast?_cons_cons] at last
      exact List.getLast?_eq_some_iff.mp last
    obtain ⟨outside, nodup⟩ := List.nodup_cons.mp shape.nodup
    rw [follows, split] at chain
    rw [split] at outside nodup ⊢
    have fresh : list.queue ∉ front := fun member => (List.nodup_append.mp nodup).2.2 _ member _ (by simp) rfl
    refine { chain := ?_, nodup := ?_, below := ?_, queue := by simp }
    · have redirected := segment_redirect chain fresh (some head)
      show Segment (nexts turned) _ _ _
      simp only [turned, nexts_setNext]
      refine segment_append.mpr ⟨some head, (segment_update outside none).mpr redirected, rfl, ?_⟩
      simp [Segment]
    · apply List.nodup_append.mpr
      refine ⟨nodup, List.nodup_singleton head, ?_⟩
      intro address member other last same
      rw [List.mem_singleton] at last
      rw [same, last] at member
      exact outside member
    · intro address member
      apply shape.below address
      rw [split]
      simp only [List.mem_append, List.mem_cons, List.not_mem_nil, or_false] at member ⊢
      tauto
  · show contents turned = contents list
    simp [turned]

end Rotate

end ZapeProof
