import Zape.Timers.Scanning

/-! Callbacks that destroy no timer only put new ones in front of the list. -/
namespace ZapeProof

open Machine ZapeModel

structure Plan where
  schedule : BitVec 64
  ticksNeeds : BitVec 64

def planOf (timer : Timer) : Plan := { schedule := timer.schedule, ticksNeeds := timer.ticksNeeds }

def plans (timers : Timers) (address : Nat) : Option Plan := (timers.node address).map planOf

def DestroysNone (calls : List TimerCall) : Prop :=
  ∀ call ∈ calls, ∀ address clearing, call ≠ .destroy address clearing

/-- The timers that were created between two counts, the last one first. -/
def newborn (first last : Nat) : List Nat := (List.range' first (last - first)).reverse

/-- New timers in front of these, and the plans of the old ones as they were. -/
structure Grown (old : Timers) (list : List Nat) (new : Timers) : Prop where
  linked : Linked new (newborn old.count new.count ++ list)
  count : old.count ≤ new.count
  busy : new.busy = old.busy
  plans : ∀ address < old.count, plans new address = plans old address

theorem newborn_self (count : Nat) : newborn count count = [] := by
  rw [newborn, Nat.sub_self]
  rfl

theorem newborn_append {first middle last : Nat} (before : first ≤ middle) (after : middle ≤ last) :
    newborn middle last ++ newborn first middle = newborn first last := by
  have split : List.range' first (last - first) =
      List.range' first (middle - first) ++ List.range' middle (last - middle) := by
    have parts := @List.range'_append_1 first (middle - first) (last - middle)
    rw [Nat.add_sub_cancel' before] at parts
    rw [parts]
    congr 1
    omega
  rw [newborn, newborn, newborn, split, List.reverse_append]

theorem newborn_succ (first : Nat) : newborn first (first + 1) = [first] := by
  rw [newborn, Nat.add_sub_cancel_left]
  rfl

theorem newborn_above {first last address : Nat} (member : address ∈ newborn first last) : first ≤ address := by
  rw [newborn, List.mem_reverse] at member
  exact List.left_le_of_mem_range' member

section Plans

variable {timers new : Timers} {address other : Nat} {timer : Timer}

theorem plans_some (node : timers.node address = some timer) : plans timers address = some (planOf timer) := by
  rw [plans, node]
  rfl

theorem alive_plans : alive timers address = (plans timers address).isSome := by
  rw [plans, Option.isSome_map]
  rfl

theorem plans_update (value : Option Timer) (differ : other ≠ address) :
    plans { timers with node := Function.update timers.node address value } other = plans timers other := by
  rw [plans, plans]
  exact congrArg _ (Function.update_of_ne differ _ _)

theorem write_plans {change : Timer → Timer} (written : timers.write address change = .ok new)
    (same : ∀ timer, planOf (change timer) = planOf timer) :
    plans new = plans timers ∧ new.count = timers.count ∧ new.calls = timers.calls := by
  cases node : timers.node address with
  | none =>
    rw [Timers.write, node] at written
    cases written
  | some timer =>
    rw [write_ok node] at written
    cases written
    refine ⟨?_, rfl, rfl⟩
    funext other
    by_cases own : other = address
    · subst own
      simp [plans, node, same]
    · exact plans_update _ own

theorem unlink_plans (unlinked : timers.unlink timer = .ok new) : plans new = plans timers := by
  obtain ⟨middle, front, back⟩ := returned_bind unlinked
  have first : plans middle = plans timers := by
    split at front
    · cases front
      rfl
    · exact (write_plans front (fun _ => rfl)).1
  split at back
  · cases back
    exact first
  · exact (write_plans back (fun _ => rfl)).1.trans first

end Plans

section Calls

variable {clock : Nat → BitVec 64} {timers middle new : Timers} {list : List Nat}

theorem grown_refl (linked : Linked timers list) : Grown timers list timers where
  linked := by
    rw [newborn_self]
    exact linked
  count := le_refl _
  busy := rfl
  plans := fun _ _ => rfl

theorem Grown.trans (first : Grown timers list middle)
    (second : Grown middle (newborn timers.count middle.count ++ list) new) : Grown timers list new where
  linked := by
    have linked := second.linked
    rw [← List.append_assoc, newborn_append first.count second.count] at linked
    exact linked
  count := first.count.trans second.count
  busy := second.busy.trans first.busy
  plans := fun address old =>
    (second.plans address (old.trans_le first.count)).trans (first.plans address old)

theorem grown_same (linked : Linked timers list) (same : SameLinks timers new) (kept : plans new = plans timers) :
    Grown timers list new where
  linked := by
    rw [same.count, newborn_self]
    exact same.linked linked
  count := same.count.ge
  busy := same.busy
  plans := fun address _ => congrFun kept address

theorem grown_asyncs (linked : Linked timers list) (asyncs : List Bool) (calls samples : Nat) :
    Grown timers list { timers with asyncs, calls, samples } :=
  grown_same linked
    { nexts := rfl, prevs := rfl, alive := rfl, head := rfl, count := rfl, busy := rfl, low := rfl } rfl

theorem create_plans {ms : BitVec 32} {clearfunc : Bool} (created : timers.apeTimerCreate clock ms clearfunc = .ok new)
    {address : Nat} (old : address ≠ timers.count) : plans new address = plans timers address := by
  obtain ⟨middle, linked, rfl⟩ := returned_map created
  have kept : plans middle = plans timers ∧ middle.count = timers.count := by
    split at linked
    · cases linked
      exact ⟨rfl, rfl⟩
    · have written := write_plans linked (fun _ => rfl)
      exact ⟨written.1, written.2.1⟩
  rw [← congrFun kept.1 address]
  exact plans_update _ old

theorem create_grown (linked : Linked timers list) (ms : BitVec 32) (clearfunc : Bool) :
    ∃ new, timers.apeTimerCreate clock ms clearfunc = .ok new ∧ Grown timers list new ∧ new.calls = timers.calls := by
  obtain ⟨node, back, created⟩ := @create_result timers list clock linked ms clearfunc
  refine ⟨_, created, { linked := ?_, count := Nat.le_succ _, busy := rfl, plans := ?_ }, rfl⟩
  · rw [newborn_succ]
    exact linked_create linked back ms clearfunc
  · exact fun address old => create_plans created old.ne

theorem clearbyid_plans (identifier : BitVec 64) (force : Bool) (slots : Nat) {start : Option Nat}
    (cleared : timers.apeTimerClearbyid identifier force slots start = .ok new) :
    plans new = plans timers ∧ new.calls = timers.calls := by
  induction slots generalizing start with
  | zero =>
    rw [Timers.apeTimerClearbyid] at cleared
    cases cleared
    exact ⟨rfl, rfl⟩
  | succ slots ih =>
    cases start with
    | none =>
      simp only [Timers.apeTimerClearbyid] at cleared
      cases cleared
      exact ⟨rfl, rfl⟩
    | some address =>
      simp only [Timers.apeTimerClearbyid] at cleared
      split at cleared
      · cases cleared
      · split at cleared
        · split at cleared
          · have written := write_plans cleared (fun _ => rfl)
            exact ⟨written.1, written.2.2⟩
          · cases cleared
            exact ⟨rfl, rfl⟩
        · exact ih cleared

theorem perform_grown (linked : Linked timers list) (call : TimerCall)
    (spares : ∀ address clearing, call ≠ .destroy address clearing) :
    ∃ new, timers.perform clock call = .ok new ∧ Grown timers list new ∧ new.calls = timers.calls := by
  cases call with
  | create ms clearfunc =>
    obtain ⟨new, created, grown⟩ := @create_grown clock timers list linked ms clearfunc
    exact ⟨new, by rw [Timers.perform, created], grown⟩
  | async clearfunc =>
    exact ⟨_, by rw [Timers.perform], grown_asyncs linked (clearfunc :: timers.asyncs) timers.calls timers.samples, rfl⟩
  | clearById identifier force =>
    obtain ⟨new, cleared, same⟩ := clearbyid_same identifier force timers.count linked.double linked.here
    have kept := clearbyid_plans identifier force timers.count cleared
    exact ⟨new, by rw [Timers.perform, cleared], grown_same linked same.toSameLinks kept.1, kept.2⟩
  | destroy address clearing => exact absurd rfl (spares address clearing)

theorem performAll_grown (linked : Linked timers list) {calls : List TimerCall} (spares : DestroysNone calls) :
    ∃ new, timers.performAll clock calls = .ok new ∧ Grown timers list new ∧ new.calls = timers.calls := by
  induction calls generalizing timers list with
  | nil => exact ⟨timers, by rw [Timers.performAll], grown_refl linked, rfl⟩
  | cons call calls ih =>
    obtain ⟨middle, performed, first, same⟩ :=
      @perform_grown clock timers list linked call (spares call List.mem_cons_self)
    obtain ⟨new, done, second, same'⟩ :=
      ih first.linked fun other member => spares other (List.mem_cons_of_mem call member)
    exact ⟨new, by rw [Timers.performAll, performed]; exact done, first.trans second, same'.trans same⟩

variable {behaviour : Nat → TimerCallback}

theorem call_grown (spares : ∀ call, DestroysNone (behaviour call).calls) (linked : Linked timers list) :
    ∃ new, timers.call clock behaviour = .ok (new, (behaviour timers.calls).ret) ∧ Grown timers list new ∧
      new.calls = timers.calls + 1 := by
  have counted := grown_asyncs linked timers.asyncs (timers.calls + 1) timers.samples
  obtain ⟨new, performed, grown, same⟩ := @performAll_grown clock _ _ counted.linked _ (spares timers.calls)
  refine ⟨new, ?_, counted.trans grown, same⟩
  rw [Timers.call]
  exact congrArg (Except.map fun timers => (timers, (behaviour (Timers.calls _)).ret)) performed

theorem runAsyncs_grown (spares : ∀ call, DestroysNone (behaviour call).calls) (linked : Linked timers list)
    (asyncs : List Bool) : ∃ new, timers.runAsyncs clock behaviour asyncs = .ok new ∧ Grown timers list new := by
  induction asyncs generalizing timers list with
  | nil => exact ⟨timers, rfl, grown_refl linked⟩
  | cons clearfunc asyncs ih =>
    obtain ⟨called, performed, first, -⟩ := @call_grown clock timers list behaviour spares linked
    cases clearfunc with
    | false =>
      obtain ⟨new, done, second⟩ := ih first.linked
      refine ⟨new, ?_, first.trans second⟩
      rw [Timers.runAsyncs, performed]
      exact done
    | true =>
      obtain ⟨cleared, clearing, second, -⟩ := @call_grown clock called _ behaviour spares first.linked
      obtain ⟨new, done, third⟩ := ih second.linked
      refine ⟨new, ?_, first.trans (second.trans third)⟩
      simp only [Timers.runAsyncs, performed, Except.bind, ite_true, clearing, Except.map]
      exact done

theorem processAsync_grown (spares : ∀ call, DestroysNone (behaviour call).calls) (linked : Linked timers list) :
    ∃ new, timers.processAsync clock behaviour = .ok new ∧ Grown timers list new := by
  have emptied := grown_asyncs linked [] timers.calls timers.samples
  obtain ⟨new, done, grown⟩ := @runAsyncs_grown clock _ _ behaviour spares emptied.linked timers.asyncs
  exact ⟨new, done, emptied.trans grown⟩

/-- The timer that is destroyed is gone, whatever its clear function creates. -/
theorem destroy_grown (spares : ∀ call, DestroysNone (behaviour call).calls) (linked : Linked timers list) {address : Nat}
    (member : address ∈ list) (idle : timers.busy = []) {timer : Timer} (node : timers.node address = some timer) :
    ∃ new, timers.apeTimerDestroy clock behaviour address = .ok (new, timer.next) ∧
      Linked new (newborn timers.count new.count ++ list.filter (· ≠ address)) ∧ timers.count ≤ new.count ∧
      new.busy = [] ∧ plans new address = none ∧
      ∀ other < timers.count, other ≠ address → plans new other = plans timers other := by
  obtain ⟨middle, unlinked, detached⟩ := unlink_detached linked node member
  have entered := detached_enter linked detached
  have inside : address < timers.count := linked.below address (alive_some node)
  have finish : ∀ {after : Timers}, Grown (middle.enter address) (list.filter (· ≠ address)) after →
      Linked (after.leave.release address) (newborn timers.count after.count ++ list.filter (· ≠ address)) ∧
        timers.count ≤ after.count ∧ after.leave.busy = [] ∧ plans (after.leave.release address) address = none ∧
        ∀ other < timers.count, other ≠ address → plans (after.leave.release address) other = plans timers other := by
    intro after grown
    have count : middle.count = timers.count := detached.count
    have linked := grown.linked
    have running : after.busy = [address] := by
      rw [grown.busy, ← idle, ← detached.busy]
      rfl
    refine ⟨?_, detached.count.symm.trans_le grown.count, ?_, ?_, ?_⟩
    · rw [← count]
      apply linked_release linked ?_ running
      intro found
      rcases List.mem_append.mp found with young | old
      · exact Nat.lt_irrefl _ ((newborn_above young).trans_lt (inside.trans_eq count.symm))
      · simp at old
    · show after.busy.tail = []
      rw [running]
      rfl
    · simp [plans, Timers.release]
    · intro other old differ
      rw [← congrFun (unlink_plans unlinked) other]
      exact (plans_update none differ).trans (grown.plans other (old.trans_eq count.symm))
  cases clears : timer.clearfunc with
  | false =>
    refine ⟨middle.release address, ?_, finish (grown_refl entered)⟩
    simp only [Timers.apeTimerDestroy, node, unlinked, clears, Except.bind, Bool.false_eq_true, ite_false, Except.map]
  | true =>
    obtain ⟨after, called, grown, -⟩ := @call_grown clock _ _ behaviour spares entered
    refine ⟨after.leave.release address, ?_, finish grown⟩
    simp only [Timers.apeTimerDestroy, node, unlinked, clears, Except.bind, ite_true, called, Except.map]

end Calls

end ZapeProof
