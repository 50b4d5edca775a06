import Zape.Ape.Shape
import Zape.Ape.Jobs
import Zape.Machine.Runs

/-! The job list of a socket: which slots are taken, and in which order they come. -/
namespace ZapeProof

open Machine ZapeModel

section Flags

variable {α : Type} (list : PoolList α) (address : Nat)

def flagsOf (list : PoolList α) : Nat → BitVec 32 := fun address => (list.node address).flags

@[simp] theorem flagsOf_setNext (next : Option Nat) : flagsOf (list.setNext address next) = flagsOf list :=
  (modify_field list address PoolNode.flags _).trans (Function.update_eq_self address (flagsOf list))

@[simp] theorem flagsOf_setPrev (prev : Option Nat) : flagsOf (list.setPrev address prev) = flagsOf list :=
  (modify_field list address PoolNode.flags _).trans (Function.update_eq_self address (flagsOf list))

@[simp] theorem flagsOf_setContent (content : α) : flagsOf (list.setContent address content) = flagsOf list :=
  (modify_field list address PoolNode.flags _).trans (Function.update_eq_self address (flagsOf list))

@[simp] theorem flagsOf_setFlags (flags : BitVec 32) :
    flagsOf (list.setFlags address flags) = Function.update (flagsOf list) address flags :=
  modify_field list address PoolNode.flags _

@[simp] theorem nexts_setFlags (flags : BitVec 32) : nexts (list.setFlags address flags) = nexts list :=
  (modify_field list address PoolNode.next _).trans (Function.update_eq_self address (nexts list))

theorem shape_setFlags {list : PoolList α} {nodes : List Nat} (shape : Shape list nodes) (address : Nat)
    (flags : BitVec 32) : Shape (list.setFlags address flags) nodes where
  chain := by
    rw [nexts_setFlags]
    exact shape.chain
  nodup := shape.nodup
  below := shape.below
  queue := shape.queue

theorem shape_current {list : PoolList α} {nodes : List Nat} (shape : Shape list nodes) (current : Option Nat) :
    Shape { list with current } nodes :=
  { chain := shape.chain, nodup := shape.nodup, below := shape.below, queue := shape.queue }

theorem flagsOf_grow [Inhabited α] (list : PoolList α) (n address : Nat) :
    flagsOf (apeGrowPool list n).1 address =
      if list.count ≤ address ∧ address < list.count + n then (if address = list.count then apePoolAlloc else 0#32)
      else flagsOf list address := by
  let grown : PoolList α := { list with node := apeNewPool list.node list.count n, count := list.count + n }
  have linked := flagsOf_setPrev (grown.setNext list.queue (some list.count)) list.count (some list.queue)
  rw [flagsOf_setNext] at linked
  have same : flagsOf (apeGrowPool list n).1 address = flagsOf grown address := congrFun linked address
  rw [same]
  by_cases inside : list.count ≤ address ∧ address < list.count + n
  · simp [flagsOf, grown, apeNewPool, inside]
  · simp [flagsOf, grown, apeNewPool, inside]

end Flags

theorem headToCurrent_shape {α : Type} {list : PoolList α} {head current : Nat} {front rest : List Nat}
    (shape : Shape list (head :: (front ++ current :: rest))) (points : list.current = some current) :
    ∃ moved first, apePoolHeadToCurrent list = .ok (moved, first) ∧
      Shape moved (front ++ current :: head :: rest) ∧ flagsOf moved = flagsOf list ∧
      contents moved = contents list ∧ moved.current = some head ∧ moved.count = list.count := by
  obtain ⟨start, chain⟩ := shape.chain
  obtain ⟨outside, nodup⟩ := List.nodup_cons.mp shape.nodup
  have apart : head ≠ current := by
    rintro rfl
    exact outside (by simp)
  have differ : ¬ list.head = list.current := by
    rw [start, points]
    simpa using apart
  have behind : (list.node current).next = rest.head? := by
    have shape : Shape list ((head :: front) ++ current :: rest) := shape
    exact shape.next
  let moved := (list.setNext head rest.head?).setNext current (some head)
  let queue := if rest.head? = none then head else list.queue
  refine ⟨{ moved with head := (list.node head).next, current := some head, queue }, (list.node head).next, ?_, ?_, ?_,
    ?_, rfl, rfl⟩
  · rw [apePoolHeadToCurrent, if_neg differ, start, points]
    simp only [behind]
    rfl
  · have fresh : current ∉ front := fun member => (List.nodup_append.mp nodup).2.2 _ member _ (by simp) rfl
    obtain ⟨middle, before, after⟩ := segment_append.mp chain
    obtain ⟨here, later⟩ := after
    have tail : current ∉ rest := (List.nodup_cons.mp (List.nodup_append.mp nodup).2.1).1
    have head_rest : head ∉ rest := fun member => outside (by simp [member])
    have head_front : head ∉ front := fun member => outside (by simp [member])
    refine { chain := ?_, nodup := ?_, below := ?_, queue := ?_ }
    · show Segment (nexts moved) (nexts list head) _ none
      simp only [moved, nexts_setNext]
      refine segment_append.mpr ⟨middle, ?_, here, ?_, ?_⟩
      · exact (segment_update fresh _).mpr ((segment_update head_front _).mpr before)
      · simp
      · rw [Function.update_of_ne apart, Function.update_self]
        apply (segment_update tail _).mpr
        apply (segment_update head_rest _).mpr
        have following : nexts list current = rest.head? := behind
        rw [← following]
        exact later
    · apply List.nodup_append.mpr
      have parts := List.nodup_append.mp nodup
      have last := List.nodup_cons.mp parts.2.1
      refine ⟨parts.1, ?_, ?_⟩
      · simp only [List.nodup_cons, List.mem_cons, not_or]
        exact ⟨⟨apart.symm, last.1⟩, head_rest, last.2⟩
      · intro address member other after
        rcases List.mem_cons.mp after with rfl | after
        · exact parts.2.2 address member _ (by simp)
        · rcases List.mem_cons.mp after with rfl | after
          · rintro rfl
            exact head_front member
          · exact parts.2.2 address member other (by simp [after])
    · intro address member
      apply shape.below address
      simp only [List.mem_append, List.mem_cons] at member ⊢
      tauto
    · have last := shape.queue
      cases rest with
      | nil =>
        show _ = some queue
        simp [queue]
      | cons other rest =>
        have old : head :: (front ++ current :: other :: rest) = (head :: (front ++ [current])) ++ other :: rest := by simp
        have new : front ++ current :: head :: other :: rest = (front ++ [current, head]) ++ other :: rest := by simp
        rw [old, List.getLast?_append] at last
        rw [new, List.getLast?_append]
        exact last
  · show flagsOf moved = _
    simp [moved]
  · show contents moved = _
    simp [moved]

/-- Where the current node is the last one in use, the head comes right behind all that are, and is the current one. -/
theorem headToCurrent_last {α : Type} {list : PoolList α} {slot : Nat} {behind unused : List Nat}
    (shape : Shape list (slot :: (behind ++ unused))) (last : list.current = (slot :: behind).getLast?) :
    ∃ moved first, apePoolHeadToCurrent list = .ok (moved, first) ∧ Shape moved (behind ++ slot :: unused) ∧
      flagsOf moved = flagsOf list ∧ contents moved = contents list ∧ moved.current = some slot := by
  rcases List.eq_nil_or_concat behind with rfl | ⟨front, current, rfl⟩
  · exact ⟨list, list.head, if_pos (shape.chain.1.trans last.symm), shape, rfl, rfl, last⟩
  · rw [List.concat_eq_append] at shape last ⊢
    rw [← List.cons_append, List.getLast?_append] at last
    rw [List.append_assoc] at shape
    obtain ⟨moved, first, turned, nodes, flags, held, now, -⟩ := headToCurrent_shape shape last
    refine ⟨moved, first, turned, ?_, flags, held, now⟩
    rw [List.append_assoc]
    exact nodes

def Accepts (jobs : PoolList Job) (slot : Nat) (bits : BitVec 32) : Prop :=
  bits = apeSocketJobWritev ∧ flagsOf jobs slot &&& apeSocketJobWritev ≠ 0#32 ∨
    flagsOf jobs slot &&& apeSocketJobActive = 0#32

def takeSlot (jobs : PoolList Job) (slot : Nat) (bits : BitVec 32) : PoolList Job :=
  { jobs with current := some slot }.setFlags slot (flagsOf jobs slot ||| (apeSocketJobActive ||| bits))

section Take

variable {socket : ApeSocket} {front rest : List Nat} {current : Nat} (bits : BitVec 32)

theorem takeSlot_flags (jobs : PoolList Job) (slot : Nat) :
    flagsOf (takeSlot jobs slot bits) =
      Function.update (flagsOf jobs) slot (flagsOf jobs slot ||| (apeSocketJobActive ||| bits)) :=
  flagsOf_setFlags { jobs with current := some slot } slot _

theorem takeSlot_shape {jobs : PoolList Job} {nodes : List Nat} (shape : Shape jobs nodes) (slot : Nat) :
    Shape (takeSlot jobs slot bits) nodes := shape_setFlags (shape_current shape (some slot)) slot _

/-- The current slot is taken, or the next one, or the first of a new block. -/
theorem getSlot_cases (shape : Shape socket.jobs (front ++ current :: rest))
    (points : socket.jobs.current = some current) :
    (Accepts socket.jobs current bits ∧ apeSocketJobGetSlot socket bits =
        .ok ({ socket with jobs := takeSlot socket.jobs current bits }, current)) ∨
      (¬ Accepts socket.jobs current bits ∧ rest = [] ∧ apeSocketJobGetSlot socket bits =
        .ok ({ socket with jobs := takeSlot (apeGrowPool socket.jobs 2).1 socket.jobs.count bits }, socket.jobs.count)) ∨
      ¬ Accepts socket.jobs current bits ∧ ∃ slot left, rest = slot :: left ∧ apeSocketJobGetSlot socket bits =
        .ok ({ socket with jobs := takeSlot socket.jobs slot bits }, slot) := by
  by_cases accepts : Accepts socket.jobs current bits
  · refine .inl ⟨accepts, ?_⟩
    have same : ({ socket.jobs with current := some current } : PoolList Job) = socket.jobs := by rw [← points]
    rw [apeSocketJobGetSlot, points, takeSlot, same]
    exact if_pos accepts
  · have refused : ¬ (bits = apeSocketJobWritev ∧ (socket.jobs.node current).flags &&& apeSocketJobWritev ≠ 0#32 ∨
        (socket.jobs.node current).flags &&& apeSocketJobActive = 0#32) := accepts
    cases rest with
    | nil =>
      refine .inr (.inl ⟨accepts, rfl, ?_⟩)
      have queue : current = socket.jobs.queue := by
        have ends := shape.queue
        rw [List.getLast?_append] at ends
        exact Option.some.inj ends
      rw [apeSocketJobGetSlot, points]
      simp only [if_neg refused, if_pos queue]
      rfl
    | cons slot left =>
      refine .inr (.inr ⟨accepts, slot, left, rfl, ?_⟩)
      have next : (socket.jobs.node current).next = some slot := shape.next
      have queue : ¬ current = socket.jobs.queue := by
        intro same
        have ends := shape.queue
        have parts := List.nodup_append.mp shape.nodup
        rw [List.getLast?_append_of_ne_nil _ (List.cons_ne_nil current _), List.getLast?_cons_cons, ← same] at ends
        exact (List.nodup_cons.mp parts.2.1).1 (List.mem_of_getLast? ends)
      rw [apeSocketJobGetSlot, points]
      simp only [if_neg refused, if_neg queue, next]
      rfl

end Take

end ZapeProof
