import Zape.Machine.DoubleList
import Zape.Timers.Process

/-! Whatever the callbacks ask for, the timers stay one doubly linked list of allocated nodes. -/
namespace ZapeProof

open Machine ZapeModel

def followers (timers : Timers) : Nat → Option Nat := fun address => (timers.node address).bind (·.next)

def predecessors (timers : Timers) : Nat → Option Nat := fun address => (timers.node address).bind (·.prev)

def alive (timers : Timers) (address : Nat) : Bool := (timers.node address).isSome

/-- These timers are linked, and no others are allocated but those that are being destroyed. -/
structure Linked (timers : Timers) (list : List Nat) : Prop where
  double : Double (followers timers) (predecessors timers) none timers.head list
  nodup : list.Nodup
  here : ∀ address ∈ list, alive timers address = true
  below : ∀ address, alive timers address = true → address < timers.count
  others : ∀ address, alive timers address = true → address ∈ list ∨ address ∈ timers.busy

/-- What callbacks leave behind: new timers in front, and of the old ones those that were not destroyed. -/
structure Follows (old : Timers) (list : List Nat) (new : Timers) (list' : List Nat) : Prop where
  linked : Linked new list'
  busy : new.busy = old.busy
  low : new.lowResolution = old.lowResolution
  count : old.count ≤ new.count
  order : ∃ fresh, list' = fresh ++ list.filter (alive new) ∧ ∀ address ∈ fresh, old.count ≤ address
  kept : ∀ address timer', address < old.count → new.node address = some timer' →
    ∃ timer, old.node address = some timer ∧ timer'.schedule = timer.schedule
  running : ∀ address ∈ old.busy, alive old address = true → alive new address = true

section Nodes

variable {timers new : Timers} {list : List Nat} {address : Nat} {timer : Timer}

theorem alive_some (node : timers.node address = some timer) : alive timers address = true := by
  rw [alive, node]
  rfl

theorem some_of_alive (allocated : alive timers address = true) : ∃ timer, timers.node address = some timer :=
  Option.isSome_iff_exists.mp allocated

theorem write_ok (node : timers.node address = some timer) (change : Timer → Timer) :
    timers.write address change =
      .ok { timers with node := Function.update timers.node address (some (change timer)) } := by
  rw [Timers.write, node]

theorem followers_update (value : Option Timer) (node : Nat → Option Timer) :
    followers { timers with node := Function.update node address value } =
      Function.update (followers { timers with node }) address (value.bind (·.next)) := by
  funext other
  by_cases same : other = address
  · subst same
    simp [followers]
  · simp [followers, same]

theorem predecessors_update (value : Option Timer) (node : Nat → Option Timer) :
    predecessors { timers with node := Function.update node address value } =
      Function.update (predecessors { timers with node }) address (value.bind (·.prev)) := by
  funext other
  by_cases same : other = address
  · subst same
    simp [predecessors]
  · simp [predecessors, same]

structure SameLinks (old new : Timers) : Prop where
  nexts : followers new = followers old
  prevs : predecessors new = predecessors old
  alive : alive new = alive old
  head : new.head = old.head
  count : new.count = old.count
  busy : new.busy = old.busy
  low : new.lowResolution = old.lowResolution

structure SameTimers (old new : Timers) : Prop extends SameLinks old new where
  schedules : ∀ address, (new.node address).map (·.schedule) = (old.node address).map (·.schedule)

theorem SameLinks.linked (same : SameLinks timers new) (linked : Linked timers list) : Linked new list where
  double := by
    rw [same.nexts, same.prevs, same.head]
    exact linked.double
  nodup := linked.nodup
  here := by
    rw [same.alive]
    exact linked.here
  below := by
    rw [same.alive, same.count]
    exact linked.below
  others := by
    rw [same.alive, same.busy]
    exact linked.others

theorem filter_alive (linked : Linked timers list) : list.filter (alive timers) = list :=
  List.filter_eq_self.mpr linked.here

theorem kept_of_schedules {address : Nat} {timer' : Timer}
    (schedules : (new.node address).map (·.schedule) = (timers.node address).map (·.schedule))
    (node : new.node address = some timer') :
    ∃ timer, timers.node address = some timer ∧ timer'.schedule = timer.schedule := by
  rw [node] at schedules
  obtain ⟨timer, found, same⟩ := Option.map_eq_some_iff.mp schedules.symm
  exact ⟨timer, found, same.symm⟩

theorem SameTimers.follows (same : SameTimers timers new) (linked : Linked timers list) : Follows timers list new list where
  linked := same.toSameLinks.linked linked
  busy := same.busy
  low := same.low
  count := same.count.ge
  order := ⟨[], by rw [same.alive, filter_alive linked, List.nil_append], by simp⟩
  kept := fun address timer' _ node => kept_of_schedules (same.schedules address) node
  running := by
    intro address _ allocated
    rw [same.alive]
    exact allocated

theorem Follows.trans {middle : Timers} {list' list'' : List Nat} (first : Follows timers list middle list')
    (second : Follows middle list' new list'') (linked : Linked timers list) : Follows timers list new list'' where
  linked := second.linked
  busy := second.busy.trans first.busy
  low := second.low.trans first.low
  count := first.count.trans second.count
  order := by
    obtain ⟨early, order, old⟩ := first.order
    obtain ⟨late, order', newer⟩ := second.order
    refine ⟨late ++ early.filter (alive new), ?_, ?_⟩
    · rw [order', order, List.filter_append, List.filter_filter, List.append_assoc]
      congr 2
      apply List.filter_congr
      intro address member
      have inside := linked.below address (linked.here address member)
      cases still : alive new address with
      | false => rfl
      | true =>
        obtain ⟨timer', node⟩ := some_of_alive still
        obtain ⟨timer, found, -⟩ := second.kept address timer' (inside.trans_le first.count) node
        rw [alive_some found]
        rfl
    · intro address member
      rcases List.mem_append.mp member with late | early
      · exact first.count.trans (newer address late)
      · exact old address (List.mem_filter.mp early).1
  kept := by
    intro address timer'' inside node
    obtain ⟨timer', found, same⟩ := second.kept address timer'' (inside.trans_le first.count) node
    obtain ⟨timer, earlier, same'⟩ := first.kept address timer' inside found
    exact ⟨timer, earlier, same.trans same'⟩
  running := by
    intro address busy allocated
    exact second.running address (first.busy ▸ busy) (first.running address busy allocated)

theorem sameLinks_write (node : timers.node address = some timer) {change : Timer → Timer}
    (next : (change timer).next = timer.next) (prev : (change timer).prev = timer.prev) :
    SameLinks timers { timers with node := Function.update timers.node address (some (change timer)) } where
  nexts := by
    rw [followers_update, Option.bind_some, next]
    exact Function.update_eq_self_iff.mpr (by simp [followers, node])
  prevs := by
    rw [predecessors_update, Option.bind_some, prev]
    exact Function.update_eq_self_iff.mpr (by simp [predecessors, node])
  alive := by
    funext other
    by_cases same : other = address
    · subst same
      simp [alive, node]
    · simp [alive, same]
  head := rfl
  count := rfl
  busy := rfl
  low := rfl

theorem sameTimers_write (node : timers.node address = some timer) {change : Timer → Timer}
    (next : (change timer).next = timer.next) (prev : (change timer).prev = timer.prev)
    (schedule : (change timer).schedule = timer.schedule) :
    SameTimers timers { timers with node := Function.update timers.node address (some (change timer)) } where
  toSameLinks := sameLinks_write node next prev
  schedules := by
    intro other
    by_cases same : other = address
    · subst same
      simp [node, schedule]
    · simp [same]

end Nodes

section Calls

variable {timers new : Timers} {list left rest : List Nat} {address : Nat} {timer : Timer} {clock : Nat → BitVec 64}

theorem linked_head (linked : Linked timers list) {head : Nat} (first : timers.head = some head) :
    alive timers head = true := by
  apply linked.here
  apply List.mem_of_head?
  rw [← first]
  exact (double_head linked.double).symm

def createdTimer (clock : Nat → BitVec 64) (timers : Timers) (ms : BitVec 32) (clearfunc : Bool) : Timer :=
  { identifier := timers.lastIdentifier + 1#64, ticksNeeds := ms.signExtend 64 * 1000000#64,
    schedule := clock timers.samples + ms.signExtend 64 * 1000000#64, clearfunc, next := timers.head }

/-- Its old memory, in which the old head points back at the new timer. -/
structure PointsBack (timers : Timers) (node : Nat → Option Timer) : Prop where
  nexts : ∀ other, (node other).bind (·.next) = followers timers other
  first : ∀ other, timers.head = some other → (node other).bind (·.prev) = some timers.count
  others : ∀ other, timers.head ≠ some other → (node other).bind (·.prev) = predecessors timers other
  alive : ∀ other, (node other).isSome = alive timers other
  schedules : ∀ other, (node other).map (·.schedule) = (timers.node other).map (·.schedule)

theorem create_result (linked : Linked timers list) (ms : BitVec 32) (clearfunc : Bool) :
    ∃ node, PointsBack timers node ∧ timers.apeTimerCreate clock ms clearfunc = .ok
      { timers with node := Function.update node timers.count (some (createdTimer clock timers ms clearfunc)),
                    count := timers.count + 1, head := some timers.count, lastIdentifier := timers.lastIdentifier + 1#64,
                    samples := timers.samples + 1 } := by
  cases first : timers.head with
  | none =>
    refine ⟨timers.node, { nexts := fun _ => rfl, first := ?_, others := fun _ _ => rfl, alive := fun _ => rfl,
                           schedules := fun _ => rfl }, ?_⟩
    · rw [first]
      nofun
    · simp only [Timers.apeTimerCreate, Timers.sample, first, createdTimer]
      rfl
  | some head =>
    obtain ⟨old, node⟩ := some_of_alive (linked_head linked first)
    refine ⟨Function.update timers.node head (some { old with prev := some timers.count }), ?_, ?_⟩
    · refine { nexts := ?_, first := ?_, others := ?_, alive := ?_, schedules := ?_ }
      · intro other
        by_cases same : other = head
        · subst same
          simp [followers, node]
        · simp [followers, same]
      · intro other points
        rw [first] at points
        cases points
        simp
      · intro other differ
        rw [first] at differ
        have apart : other ≠ head := by
          rintro rfl
          exact differ rfl
        simp [predecessors, apart]
      · intro other
        by_cases same : other = head
        · subst same
          simp [alive, node]
        · simp [alive, same]
      · intro other
        by_cases same : other = head
        · subst same
          simp [node]
        · simp [same]
    · simp only [Timers.apeTimerCreate, Timers.sample, first, Timers.write, node, createdTimer]
      rfl

theorem linked_create (linked : Linked timers list) {node : Nat → Option Timer} (back : PointsBack timers node)
    (ms : BitVec 32) (clearfunc : Bool) : Linked
      { timers with node := Function.update node timers.count (some (createdTimer clock timers ms clearfunc)),
                    count := timers.count + 1, head := some timers.count, lastIdentifier := timers.lastIdentifier + 1#64,
                    samples := timers.samples + 1 } (timers.count :: list) := by
  have unused : ¬ alive timers timers.count = true := fun allocated => Nat.lt_irrefl _ (linked.below _ allocated)
  have fresh : timers.count ∉ list := fun member => unused (linked.here _ member)
  let timer := createdTimer clock timers ms clearfunc
  let new : Timers :=
    { timers with
      node := Function.update node timers.count (some timer)
      count := timers.count + 1
      head := some timers.count
      lastIdentifier := timers.lastIdentifier + 1#64
      samples := timers.samples + 1 }
  have own : new.node timers.count = some timer := Function.update_self _ _ _
  have old : ∀ address, address ≠ timers.count → new.node address = node address :=
    fun address differ => Function.update_of_ne differ _ _
  have allocated : ∀ address, alive new address = true ↔ address = timers.count ∨ alive timers address = true := by
    intro address
    by_cases same : address = timers.count
    · subst same
      simp [alive, own]
    · rw [alive, old address same, back.alive]
      simp [same]
  have nexts : followers new = Function.update (followers timers) timers.count timers.head := by
    funext address
    by_cases same : address = timers.count
    · subst same
      rw [followers, own, Function.update_self]
      rfl
    · rw [followers, old address same, back.nexts, Function.update_of_ne same]
  refine { double := ?_, nodup := List.nodup_cons.mpr ⟨fresh, linked.nodup⟩, here := ?_, below := ?_, others := ?_ }
  · show Double (followers new) _ _ _ _
    rw [nexts]
    apply double_push linked.double linked.nodup fresh
    · intro other points
      have differ : other ≠ timers.count := by
        rintro rfl
        exact unused (linked_head linked points)
      rw [predecessors, old other differ]
      exact back.first other points
    · intro other member differ
      have apart : other ≠ timers.count := by
        rintro rfl
        exact fresh member
      rw [predecessors, old other apart]
      exact back.others other differ
    · rw [predecessors, own]
      rfl
  · intro address member
    apply (allocated address).mpr
    rcases List.mem_cons.mp member with rfl | old
    · exact .inl rfl
    · exact .inr (linked.here address old)
  · intro address found
    rcases (allocated address).mp found with rfl | old
    · exact Nat.lt_succ_self _
    · exact (linked.below address old).trans (Nat.lt_succ_self _)
  · intro address found
    rcases (allocated address).mp found with rfl | old
    · exact .inl (by simp)
    · rcases linked.others address old with inside | busy
      · exact .inl (List.mem_cons_of_mem _ inside)
      · exact .inr busy

theorem follows_create (linked : Linked timers list) (ms : BitVec 32) (clearfunc : Bool) :
    ∃ new list', timers.apeTimerCreate clock ms clearfunc = .ok new ∧ Follows timers list new list' := by
  obtain ⟨node, back, created⟩ := @create_result timers list clock linked ms clearfunc
  have grown := @linked_create timers list clock linked node back ms clearfunc
  have unused : ¬ alive timers timers.count = true := fun allocated => Nat.lt_irrefl _ (linked.below _ allocated)
  have still : ∀ {timer : Timer} {address : Nat}, alive timers address = true →
      (Function.update node timers.count (some timer) address).isSome = true := by
    intro timer address allocated
    have differ : address ≠ timers.count := by
      rintro rfl
      exact unused allocated
    rw [Function.update_of_ne differ, back.alive]
    exact allocated
  refine ⟨_, timers.count :: list, created,
    { linked := grown, busy := rfl, low := rfl, count := Nat.le_succ _, order := ⟨[timers.count], ?_, by simp⟩, kept := ?_,
      running := fun address _ allocated => still allocated }⟩
  · apply congrArg (timers.count :: ·) (List.filter_eq_self.mpr ?_).symm
    exact fun address member => still (linked.here address member)
  · intro address timer' inside found
    have old : Function.update node timers.count (some (createdTimer clock timers ms clearfunc)) address = node address :=
      Function.update_of_ne inside.ne _ _
    have schedules := back.schedules address
    rw [← old] at schedules
    exact kept_of_schedules schedules found

theorem clearbyid_same (identifier : BitVec 64) (force : Bool) (slots : Nat)
    {before start : Option Nat} (double : Double (followers timers) (predecessors timers) before start rest)
    (inside : ∀ address ∈ rest, alive timers address = true) :
    ∃ new, timers.apeTimerClearbyid identifier force slots start = .ok new ∧ SameTimers timers new := by
  have stays : SameTimers timers timers :=
    { nexts := rfl, prevs := rfl, alive := rfl, schedules := fun _ => rfl, head := rfl, count := rfl, busy := rfl, low := rfl }
  induction slots generalizing before start rest with
  | zero => exact ⟨timers, by rw [Timers.apeTimerClearbyid], stays⟩
  | succ slots ih =>
    cases rest with
    | nil =>
      cases (show start = none from double)
      exact ⟨timers, by simp only [Timers.apeTimerClearbyid], stays⟩
    | cons address rest =>
      obtain ⟨rfl, -, later⟩ := double
      obtain ⟨timer, node⟩ := some_of_alive (inside address (by simp))
      let clear := fun timer : Timer => { timer with flags := timer.flags ||| apeTimerIsCleared }
      have step : timers.apeTimerClearbyid identifier force (slots + 1) (some address) =
          if timer.identifier = identifier then
            if timer.flags &&& apeTimerIsProtected = 0#32 ∨ force then timers.write address clear else .ok timers
          else timers.apeTimerClearbyid identifier force slots timer.next := by
        simp only [Timers.apeTimerClearbyid, node, clear]
      by_cases found : timer.identifier = identifier
      · rw [step, if_pos found]
        by_cases cleared : timer.flags &&& apeTimerIsProtected = 0#32 ∨ force = true
        · rw [if_pos cleared]
          exact ⟨_, write_ok node clear, sameTimers_write node rfl rfl rfl⟩
        · rw [if_neg cleared]
          exact ⟨timers, rfl, stays⟩
      · have next : followers timers address = timer.next := by
          rw [followers, node]
          rfl
        rw [next] at later
        rw [step, if_neg found]
        exact ih later fun other member => inside other (List.mem_cons_of_mem _ member)

/-- A timer that was taken out of the list, and is still allocated. -/
structure Detached (old : Timers) (list : List Nat) (address : Nat) (new : Timers) : Prop where
  double : Double (followers new) (predecessors new) none new.head (list.filter (· ≠ address))
  alive : alive new = alive old
  schedules : ∀ other, (new.node other).map (·.schedule) = (old.node other).map (·.schedule)
  own : new.node address = old.node address
  count : new.count = old.count
  busy : new.busy = old.busy
  low : new.lowResolution = old.lowResolution

/-- The links were changed, and nothing else in the memory. -/
structure Rewired (old new : Timers) (next prev : Nat → Option Nat) : Prop where
  nexts : followers new = next
  prevs : predecessors new = prev
  alive : alive new = alive old
  schedules : ∀ other, (new.node other).map (·.schedule) = (old.node other).map (·.schedule)
  count : new.count = old.count
  busy : new.busy = old.busy
  low : new.lowResolution = old.lowResolution

theorem rewired_write (node : timers.node address = some timer) {change : Timer → Timer}
    (schedule : (change timer).schedule = timer.schedule) :
    Rewired timers { timers with node := Function.update timers.node address (some (change timer)) }
      (Function.update (followers timers) address (change timer).next)
      (Function.update (predecessors timers) address (change timer).prev) where
  nexts := followers_update _ _
  prevs := predecessors_update _ _
  alive := by
    funext other
    by_cases same : other = address
    · subst same
      simp [alive, node]
    · simp [alive, same]
  schedules := by
    intro other
    by_cases same : other = address
    · subst same
      simp [node, schedule]
    · simp [same]
  count := rfl
  busy := rfl
  low := rfl

/-- The first half of taking a timer out: what is in front points to what is behind. -/
theorem unlink_front (linked : Linked timers (left ++ address :: rest)) (node : timers.node address = some timer) :
    ∃ new, (match timer.prev with
        | none => .ok { timers with head := timer.next }
        | some prev => timers.write prev fun node => { node with next := timer.next } : Except Fault Timers) = .ok new ∧
      Rewired timers new (nextWithout (followers timers) (predecessors timers) address) (predecessors timers) ∧
      new.head = (if left = [] then timer.next else timers.head) ∧ new.node address = some timer := by
  have back := double_prev linked.double
  have own : predecessors timers address = timer.prev := by
    rw [predecessors, node]
    rfl
  have forward : followers timers address = timer.next := by
    rw [followers, node]
    rfl
  rw [own] at back
  cases points : timer.prev with
  | none =>
    have none_left : left = [] := by
      by_contra some_left
      rw [points, if_neg some_left] at back
      exact some_left (List.getLast?_eq_none_iff.mp back.symm)
    refine ⟨_, rfl, ?_, (if_pos none_left).symm, node⟩
    exact { nexts := by simp only [nextWithout, own, points]; rfl, prevs := rfl, alive := rfl, schedules := fun _ => rfl,
            count := rfl, busy := rfl, low := rfl }
  | some prev =>
    rw [points] at back own
    have some_left : left ≠ [] := by
      rintro rfl
      rw [if_pos rfl] at back
      cases back
    rw [if_neg some_left] at back
    have member : prev ∈ left := List.mem_of_getLast? back.symm
    obtain ⟨before, found⟩ := some_of_alive (linked.here prev (List.mem_append_left _ member))
    have apart : address ≠ prev := by
      rintro rfl
      exact (List.nodup_append.mp linked.nodup).2.2 _ member _ (by simp) rfl
    have rewired := @rewired_write timers prev before found (fun node => { node with next := timer.next }) rfl
    refine ⟨_, write_ok found _, { rewired with nexts := ?_, prevs := ?_ }, (if_neg some_left).symm, ?_⟩
    · rw [rewired.nexts]
      simp only [nextWithout, own, forward]
    · rw [rewired.prevs]
      exact Function.update_eq_self_iff.mpr (by simp [predecessors, found])
    · show Function.update timers.node prev _ address = _
      rw [Function.update_of_ne apart, node]

theorem filter_apart (nodup : (left ++ address :: rest).Nodup) :
    (left ++ address :: rest).filter (· ≠ address) = left ++ rest := by
  have parts := List.nodup_append.mp nodup
  have last := List.nodup_cons.mp parts.2.1
  rw [List.filter_append, List.filter_cons_of_neg (by simp)]
  congr 1
  · apply List.filter_eq_self.mpr
    intro other member
    simpa using fun same => parts.2.2 other member address (by simp) same
  · apply List.filter_eq_self.mpr
    intro other member
    simp only [ne_eq, decide_not, Bool.not_eq_true', decide_eq_false_iff_not]
    rintro rfl
    exact last.1 member

theorem unlink_detached (linked : Linked timers list) (node : timers.node address = some timer) (member : address ∈ list) :
    ∃ new, timers.unlink timer = .ok new ∧ Detached timers list address new := by
  obtain ⟨left, rest, rfl⟩ := List.append_of_mem member
  obtain ⟨middle, front, rewired, head, own⟩ := unlink_front linked node
  have forward : followers timers address = timer.next := by
    rw [followers, node]
    rfl
  have behind : timer.next = rest.head? := by
    rw [← forward]
    exact double_next linked.double
  have double := double_unlink linked.double linked.nodup nofun
  rw [← rewired.nexts, forward, ← head] at double
  have step : timers.unlink timer = match timer.next with
      | none => .ok middle
      | some next => middle.write next fun node => { node with prev := timer.prev } := by
    rw [Timers.unlink]
    exact congrArg (Except.bind · _) front
  cases points : timer.next with
  | none =>
    rw [points] at step
    have same : prevWithout (followers timers) (predecessors timers) address = predecessors middle := by
      rw [rewired.prevs]
      simp only [prevWithout, forward, points]
    rw [same] at double
    exact ⟨middle, step,
      { double := by rw [filter_apart linked.nodup]; exact double
        alive := rewired.alive, schedules := rewired.schedules, own := own.trans node.symm, count := rewired.count,
        busy := rewired.busy, low := rewired.low }⟩
  | some next =>
    rw [points] at step behind forward
    have inside : next ∈ rest := List.mem_of_head? behind.symm
    have allocated : alive middle next = true := by
      rw [rewired.alive]
      exact linked.here next (List.mem_append_right _ (List.mem_cons_of_mem _ inside))
    obtain ⟨after, found⟩ := some_of_alive allocated
    have apart : address ≠ next := by
      rintro rfl
      exact (List.nodup_cons.mp (List.nodup_append.mp linked.nodup).2.1).1 inside
    have written := @rewired_write middle next after found (fun node => { node with prev := timer.prev }) rfl
    have prevs : prevWithout (followers timers) (predecessors timers) address =
        Function.update (predecessors middle) next timer.prev := by
      rw [rewired.prevs]
      have back : predecessors timers address = timer.prev := by
        rw [predecessors, node]
        rfl
      simp only [prevWithout, forward, back]
    have nexts : followers middle = Function.update (followers middle) next after.next :=
      (Function.update_eq_self_iff.mpr (by simp [followers, found])).symm
    rw [prevs, nexts] at double
    refine ⟨_, step.trans (write_ok found _), ?_⟩
    exact { double := by rw [filter_apart linked.nodup, written.nexts, written.prevs]; exact double
            alive := written.alive.trans rewired.alive
            schedules := fun other => (written.schedules other).trans (rewired.schedules other)
            own := by
              show Function.update middle.node next _ address = _
              rw [Function.update_of_ne apart, own, node]
            count := rewired.count, busy := rewired.busy, low := rewired.low }

theorem followers_release (timers : Timers) (address : Nat) :
    followers (timers.release address) = Function.update (followers timers) address none :=
  followers_update none timers.node

theorem predecessors_release (timers : Timers) (address : Nat) :
    predecessors (timers.release address) = Function.update (predecessors timers) address none :=
  predecessors_update none timers.node

theorem alive_release (timers : Timers) (address other : Nat) :
    alive (timers.release address) other = (alive timers other && decide (other ≠ address)) := by
  by_cases same : other = address
  · subst same
    simp [alive, Timers.release]
  · simp [alive, Timers.release, same]

theorem detached_enter {middle : Timers} (linked : Linked timers list) (detached : Detached timers list address middle) :
    Linked (middle.enter address) (list.filter (· ≠ address)) where
  double := detached.double
  nodup := linked.nodup.filter _
  here := by
    intro other member
    show alive middle other = true
    rw [detached.alive]
    exact linked.here other (List.mem_filter.mp member).1
  below := by
    intro other allocated
    have still : alive middle other = true := allocated
    rw [detached.alive] at still
    exact (linked.below other still).trans_eq detached.count.symm
  others := by
    intro other allocated
    have still : alive middle other = true := allocated
    rw [detached.alive] at still
    show _ ∨ other ∈ address :: middle.busy
    rw [detached.busy, List.mem_cons]
    by_cases same : other = address
    · exact .inr (.inl same)
    · rcases linked.others other still with inside | busy
      · exact .inl (List.mem_filter.mpr ⟨inside, by simpa using same⟩)
      · exact .inr (.inr busy)

theorem linked_release {busy : List Nat} (linked : Linked timers list) (outside : address ∉ list)
    (running : timers.busy = address :: busy) : Linked (timers.leave.release address) list where
  double := by
    rw [followers_release, predecessors_release]
    have differ : ∀ other ∈ list, other ≠ address := by
      rintro other member rfl
      exact outside member
    apply double_congr ?_ ?_ linked.double
    · exact fun other member => Function.update_of_ne (differ other member) _ _
    · exact fun other member => Function.update_of_ne (differ other member) _ _
  nodup := linked.nodup
  here := by
    intro other member
    rw [alive_release, Bool.and_eq_true, decide_eq_true_eq]
    refine ⟨linked.here other member, ?_⟩
    rintro rfl
    exact outside member
  below := by
    intro other allocated
    rw [alive_release, Bool.and_eq_true] at allocated
    exact linked.below other allocated.1
  others := by
    intro other allocated
    rw [alive_release, Bool.and_eq_true, decide_eq_true_eq] at allocated
    rcases linked.others other allocated.1 with inside | found
    · exact .inl inside
    · rw [running, List.mem_cons] at found
      refine .inr ?_
      show other ∈ timers.busy.tail
      rw [running]
      exact found.resolve_left allocated.2

theorem follows_destroyed {middle after : Timers} {list' : List Nat} (linked : Linked timers list)
    (member : address ∈ list) (outside : address ∉ timers.busy) (detached : Detached timers list address middle)
    (follows : Follows (middle.enter address) (list.filter (· ≠ address)) after list') :
    Follows timers list (after.leave.release address) list' := by
  have running : after.busy = address :: timers.busy := follows.busy.trans (congrArg (address :: ·) detached.busy)
  have count : timers.count ≤ after.count := detached.count.symm.trans_le follows.count
  have apart : address ∉ list' := by
    obtain ⟨fresh, order, newer⟩ := follows.order
    rw [order, List.mem_append]
    rintro (young | old)
    · exact absurd (newer address young)
        (Nat.not_le.mpr ((linked.below address (linked.here address member)).trans_eq detached.count.symm))
    · simp at old
  refine { linked := linked_release follows.linked apart running, busy := ?_, low := follows.low.trans detached.low, count,
           order := ?_, kept := ?_, running := ?_ }
  · show after.busy.tail = _
    rw [running]
    rfl
  · obtain ⟨fresh, order, newer⟩ := follows.order
    refine ⟨fresh, ?_, fun other young => detached.count.symm.trans_le (newer other young)⟩
    rw [order, List.filter_filter]
    congr 1
    apply List.filter_congr
    intro other _
    rw [alive_release]
    rfl
  · intro other timer' inside node
    have still := alive_some node
    rw [alive_release, Bool.and_eq_true, decide_eq_true_eq] at still
    have same : (after.leave.release address).node other = after.node other := Function.update_of_ne still.2 _ _
    rw [same] at node
    obtain ⟨timer, found, schedule⟩ := follows.kept other timer' (inside.trans_eq detached.count.symm) node
    obtain ⟨first, earlier, schedule'⟩ := kept_of_schedules (detached.schedules other) found
    exact ⟨first, earlier, schedule.trans schedule'⟩
  · intro other busy allocated
    rw [alive_release, Bool.and_eq_true, decide_eq_true_eq]
    refine ⟨follows.running other ?_ ?_, ?_⟩
    · show other ∈ address :: middle.busy
      rw [detached.busy]
      exact List.mem_cons_of_mem _ busy
    · show alive middle other = true
      rw [detached.alive]
      exact allocated
    · rintro rfl
      exact outside busy

theorem follows_refl (linked : Linked timers list) : Follows timers list timers list :=
  SameTimers.follows
    { nexts := rfl, prevs := rfl, alive := rfl, schedules := fun _ => rfl, head := rfl, count := rfl, busy := rfl, low := rfl }
    linked

theorem follows_asyncs (linked : Linked timers list) (asyncs : List Bool) (calls : Nat) :
    Follows timers list { timers with asyncs, calls } list :=
  SameTimers.follows
    { nexts := rfl, prevs := rfl, alive := rfl, schedules := fun _ => rfl, head := rfl, count := rfl, busy := rfl, low := rfl }
    linked

mutual

theorem perform_follows {timers : Timers} {list : List Nat} (linked : Linked timers list) (call : TimerCall) :
    ∃ new list', timers.perform clock call = .ok new ∧ Follows timers list new list' := by
  match call with
  | .create ms clearfunc =>
    obtain ⟨new, list', created, follows⟩ := @follows_create timers list clock linked ms clearfunc
    exact ⟨new, list', by rw [Timers.perform, created], follows⟩
  | .async clearfunc =>
    exact ⟨_, list, by rw [Timers.perform], follows_asyncs linked (clearfunc :: timers.asyncs) timers.calls⟩
  | .clearById identifier force =>
    obtain ⟨new, cleared, same⟩ := clearbyid_same identifier force timers.count linked.double linked.here
    exact ⟨new, list, by rw [Timers.perform, cleared], same.follows linked⟩
  | .destroy address clearing =>
    cases node : timers.node address with
    | none => exact ⟨timers, list, by simp only [Timers.perform, node], follows_refl linked⟩
    | some timer =>
      by_cases busy : address ∈ timers.busy
      · exact ⟨timers, list, by simp only [Timers.perform, node, busy, ite_true], follows_refl linked⟩
      · have member : address ∈ list := (linked.others address (alive_some node)).resolve_right busy
        obtain ⟨middle, unlinked, detached⟩ := unlink_detached linked node member
        have entered := detached_enter linked detached
        cases clears : timer.clearfunc with
        | false =>
          refine ⟨middle.release address, _, ?_,
            follows_destroyed linked member busy detached (follows_refl entered)⟩
          simp only [Timers.perform, node, busy, ite_false, unlinked, clears, Except.bind, Bool.false_eq_true, Except.map]
        | true =>
          obtain ⟨after, list', performed, follows⟩ := performAll_follows entered clearing
          refine ⟨after.leave.release address, list', ?_, follows_destroyed linked member busy detached follows⟩
          simp only [Timers.perform, node, busy, ite_false, unlinked, clears, Except.bind, ite_true, performed, Except.map]

theorem performAll_follows {timers : Timers} {list : List Nat} (linked : Linked timers list) (calls : List TimerCall) :
    ∃ new list', timers.performAll clock calls = .ok new ∧ Follows timers list new list' := by
  match calls with
  | [] => exact ⟨timers, list, by rw [Timers.performAll], follows_refl linked⟩
  | call :: calls =>
    obtain ⟨middle, list', performed, first⟩ := perform_follows linked call
    obtain ⟨new, list'', done, second⟩ := performAll_follows first.linked calls
    exact ⟨new, list'', by rw [Timers.performAll, performed]; exact done, first.trans second linked⟩

end

end Calls

end ZapeProof
