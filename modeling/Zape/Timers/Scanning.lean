import Zape.Timers.Linked

/-! `ape_timers_process` keeps a pointer to the timer that comes next, and a callback may free that timer. -/
namespace ZapeProof

open Machine ZapeModel

/-- Of these timers, the old ones are not due before the minimum so far. -/
def PassedBy (first : Nat) (inums : BitVec 64) (timers : Timers) (behind : List Nat) : Prop :=
  ∀ address ∈ behind, address < first → ∀ timer, timers.node address = some timer →
    inums.toNat ≤ timer.schedule.toNat

/-- The scan in the middle of the list: the timers behind the cursor are new, or were passed. -/
structure Scanned (first : Nat) (scan : Scan) (behind ahead : List Nat) : Prop where
  linked : Linked scan.timers (behind ++ ahead)
  busy : scan.timers.busy = []
  cur : scan.cur = ahead.head?
  old : ∀ address ∈ ahead, address < first
  count : first ≤ scan.timers.count
  passed : PassedBy first scan.inums scan.timers behind

/-- Where the scan destroys a timer, the clear function of that timer does not destroy the next one. -/
def SparesNext (clock : Nat → BitVec 64) (behaviour : Nat → TimerCallback) (scan : Scan) : Prop :=
  scan.label = .destroy → ∀ address timers next, scan.cur = some address →
    scan.timers.apeTimerDestroy clock behaviour address = .ok (timers, some next) → alive timers next = true

/-- The first asyncs do not destroy the first timer. -/
def SparesHead (clock : Nat → BitVec 64) (behaviour : Nat → TimerCallback) (timers : Timers) : Prop :=
  ∀ after head, timers.processAsync clock behaviour = .ok after → timers.head = some head → alive after head = true

section Passes

variable {clock : Nat → BitVec 64} {behaviour : Nat → TimerCallback} {timers : Timers} {list : List Nat}

theorem call_follows (linked : Linked timers list) :
    ∃ new ret list', timers.call clock behaviour = .ok (new, ret) ∧ Follows timers list new list' := by
  have counted := follows_asyncs linked timers.asyncs (timers.calls + 1)
  obtain ⟨new, list', performed, follows⟩ :=
    @performAll_follows clock _ _ counted.linked (behaviour timers.calls).calls
  refine ⟨new, (behaviour timers.calls).ret, list', ?_, counted.trans follows linked⟩
  rw [Timers.call]
  exact congrArg (Except.map fun timers => (timers, (behaviour (Timers.calls _)).ret)) performed

theorem runAsyncs_follows (linked : Linked timers list) (asyncs : List Bool) :
    ∃ new list', timers.runAsyncs clock behaviour asyncs = .ok new ∧ Follows timers list new list' := by
  induction asyncs generalizing timers list with
  | nil => exact ⟨timers, list, rfl, follows_refl linked⟩
  | cons clearfunc asyncs ih =>
    obtain ⟨called, ret, list', performed, first⟩ := @call_follows clock behaviour timers list linked
    cases clearfunc with
    | false =>
      obtain ⟨new, list'', done, second⟩ := ih first.linked
      refine ⟨new, list'', ?_, first.trans second linked⟩
      rw [Timers.runAsyncs, performed]
      exact done
    | true =>
      obtain ⟨cleared, value, list'', clearing, second⟩ := @call_follows clock behaviour called list' first.linked
      obtain ⟨new, last, done, third⟩ := ih second.linked
      refine ⟨new, last, ?_, (first.trans second linked).trans third linked⟩
      simp only [Timers.runAsyncs, performed, Except.bind, ite_true, clearing, Except.map]
      exact done

theorem processAsync_follows (linked : Linked timers list) :
    ∃ new list', timers.processAsync clock behaviour = .ok new ∧ Follows timers list new list' := by
  have emptied := follows_asyncs linked [] timers.calls
  obtain ⟨new, list', done, follows⟩ := @runAsyncs_follows clock behaviour _ _ emptied.linked timers.asyncs
  exact ⟨new, list', done, emptied.trans follows linked⟩

theorem destroy_follows (linked : Linked timers list) {address : Nat} (member : address ∈ list)
    (idle : timers.busy = []) {timer : Timer} (node : timers.node address = some timer) :
    ∃ new list', timers.apeTimerDestroy clock behaviour address = .ok (new, timer.next) ∧
      Follows timers list new list' ∧ alive new address = false := by
  have outside : address ∉ timers.busy := by simp [idle]
  obtain ⟨middle, unlinked, detached⟩ := unlink_detached linked node member
  have entered := detached_enter linked detached
  cases clears : timer.clearfunc with
  | false =>
    refine ⟨middle.release address, _, ?_, follows_destroyed linked member outside detached (follows_refl entered), ?_⟩
    · simp only [Timers.apeTimerDestroy, node, unlinked, clears, Except.bind, Bool.false_eq_true, ite_false, Except.map]
    · rw [alive_release]
      simp
  | true =>
    obtain ⟨after, ret, list', called, follows⟩ := @call_follows clock behaviour _ _ entered
    refine ⟨after.leave.release address, list', ?_, follows_destroyed linked member outside detached follows, ?_⟩
    · simp only [Timers.apeTimerDestroy, node, unlinked, clears, Except.bind, ite_true, called, Except.map]
    · rw [alive_release]
      simp

end Passes

section Turns

variable {clock : Nat → BitVec 64} {behaviour : Nat → TimerCallback} {first : Nat} {scan : Scan} {behind ahead : List Nat}
  {timers new : Timers} {inums : BitVec 64}

/-- What was ahead of the cursor and still is, in front of it what was passed or is new. -/
theorem passed_follows {list : List Nat} (follows : Follows timers (behind ++ ahead) new list)
    (count : first ≤ timers.count) (passed : PassedBy first inums timers behind) :
    ∃ behind', list = behind' ++ ahead.filter (alive new) ∧ PassedBy first inums new behind' := by
  obtain ⟨fresh, order, newer⟩ := follows.order
  refine ⟨fresh ++ behind.filter (alive new), ?_, ?_⟩
  · rw [order, List.filter_append, List.append_assoc]
  · intro address member old timer' node
    obtain ⟨timer, found, same⟩ := follows.kept address timer' (old.trans_le count) node
    rcases List.mem_append.mp member with young | before
    · exact absurd (count.trans (newer address young)) (Nat.not_le.mpr old)
    · rw [same]
      exact passed address (List.mem_filter.mp before).1 old timer found

theorem linked_enter {list : List Nat} (linked : Linked timers list) (address : Nat) : Linked (timers.enter address) list :=
  { double := linked.double, nodup := linked.nodup, here := linked.here, below := linked.below,
    others := fun other allocated => (linked.others other allocated).imp id (List.mem_cons_of_mem address) }

theorem linked_leave {list busy : List Nat} {address : Nat} (linked : Linked timers list)
    (running : timers.busy = address :: busy) (member : address ∈ list) : Linked timers.leave list :=
  { double := linked.double, nodup := linked.nodup, here := linked.here, below := linked.below,
    others := by
      intro other allocated
      rcases linked.others other allocated with inside | found
      · exact .inl inside
      · rw [running, List.mem_cons] at found
        rcases found with rfl | found
        · exact .inl member
        · refine .inr ?_
          show other ∈ timers.busy.tail
          rw [running]
          exact found }

theorem linked_sample {list : List Nat} (linked : Linked timers list) (samples : Nat) : Linked { timers with samples } list :=
  { double := linked.double, nodup := linked.nodup, here := linked.here, below := linked.below, others := linked.others }

theorem callback_follows {address : Nat} (linked : Linked timers (behind ++ address :: ahead)) (idle : timers.busy = [])
    (count : first ≤ timers.count) (passed : PassedBy first inums timers behind) :
    ∃ after ret behind', (timers.enter address).call clock behaviour = .ok (after, ret) ∧
      Linked after.leave (behind' ++ address :: ahead.filter (alive after)) ∧ after.leave.busy = [] ∧
      first ≤ after.count ∧ after.lowResolution = timers.lowResolution ∧ PassedBy first inums after behind' := by
  have member : address ∈ behind ++ address :: ahead := by simp
  obtain ⟨after, ret, list', called, follows⟩ :=
    @call_follows clock behaviour _ _ (linked_enter linked address)
  obtain ⟨behind', split, still⟩ := passed_follows follows count passed
  have running : after.busy = [address] := follows.busy.trans (congrArg (address :: ·) idle)
  have here : alive after address = true := follows.running address (List.mem_cons_self) (linked.here address member)
  rw [List.filter_cons_of_pos here] at split
  refine ⟨after, ret, behind', called, ?_, ?_, count.trans follows.count, follows.low, still⟩
  · rw [← split]
    exact linked_leave follows.linked running (split ▸ by simp)
  · show after.busy.tail = _
    rw [running]
    rfl

theorem passed_write {address : Nat} {value : Option Timer} (passed : PassedBy first inums timers behind)
    (outside : address ∉ behind) :
    PassedBy first inums { timers with node := Function.update timers.node address value } behind := by
  intro other member old timer node
  have differ : other ≠ address := by
    rintro rfl
    exact outside member
  rw [show ({ timers with node := Function.update timers.node address value } : Timers).node other = timers.node other from
    Function.update_of_ne differ _ _] at node
  exact passed other member old timer node

theorem write_linked {list : List Nat} {address : Nat} (linked : Linked timers list) (allocated : alive timers address = true)
    {change : Timer → Timer} (next : ∀ timer, (change timer).next = timer.next)
    (prev : ∀ timer, (change timer).prev = timer.prev) :
    ∃ value, timers.write address change = .ok { timers with node := Function.update timers.node address value } ∧
      Linked { timers with node := Function.update timers.node address value } list ∧ alive
        { timers with node := Function.update timers.node address value } = alive timers := by
  obtain ⟨timer, node⟩ := some_of_alive allocated
  have same := sameLinks_write node (next timer) (prev timer)
  exact ⟨_, write_ok node change, same.linked linked, same.alive⟩

theorem scanned_run {address : Nat} (scanned : Scanned first scan behind (address :: ahead)) {timers : Timers}
    (linked : Linked timers (behind ++ address :: ahead)) (idle : timers.busy = []) (count : first ≤ timers.count)
    (passed : PassedBy first scan.inums timers behind) (start : BitVec 64) :
    ∃ next, runTimer clock behaviour scan timers address start = .again next ∧ next.inums = scan.inums ∧
      ∃ behind' ahead', Scanned first next behind' ahead' := by
  obtain ⟨after, ret, behind', called, left, idle', count', -, still⟩ :=
    @callback_follows clock behaviour first behind ahead timers scan.inums address linked idle count passed
  have cur : scan.cur = some address := scanned.cur
  have old : ∀ other ∈ address :: ahead.filter (alive after), other < first := by
    intro other member
    apply scanned.old
    rcases List.mem_cons.mp member with rfl | later
    · exact List.mem_cons_self
    · exact List.mem_cons_of_mem _ (List.mem_filter.mp later).1
  by_cases ends : ret.signExtend 64 = 0#64
  · refine ⟨{ scan with timers := after.leave, label := .destroy }, ?_, rfl, behind', _,
      { linked := left, busy := idle', cur, old, count := count', passed := still }⟩
    simp only [runTimer, called, ends, ite_true]
  · have outside : address ∉ behind' := by
      intro member
      exact (List.nodup_append.mp left.nodup).2.2 address member address (by simp) rfl
    have here : alive after.leave address = true := left.here address (by simp)
    let change := fun timer : Timer =>
      if ret.signExtend 64 = uint64Max then { timer with schedule := start + timer.ticksNeeds }
      else { timer with ticksNeeds := ret.signExtend 64 * 1000000#64, schedule := start + ret.signExtend 64 * 1000000#64 }
    obtain ⟨value, written, linked', alive'⟩ := @write_linked after.leave _ address left here change
      (fun timer => by simp only [change]; split <;> rfl) (fun timer => by simp only [change]; split <;> rfl)
    let lastsample := clock after.leave.samples
    let sampled : Timers :=
      { after.leave with node := Function.update after.leave.node address value, samples := after.leave.samples + 1 }
    have rescheduled : reschedule after.leave address start (ret.signExtend 64) =
        .ok { after.leave with node := Function.update after.leave.node address value } := written
    let count := fun timer : Timer => { timer with stats := timer.stats.add ((lastsample - start).setWidth 32) }
    have allocated : alive sampled address = true := by
      show alive { after.leave with node := Function.update after.leave.node address value } address = true
      rw [alive']
      exact here
    obtain ⟨stats, counted, final, -⟩ :=
      @write_linked sampled _ address (linked_sample linked' _) allocated count (fun _ => rfl) (fun _ => rfl)
    have kept := @passed_write first behind' _ scan.inums address stats
      (@passed_write first behind' after.leave scan.inums address value still outside) outside
    refine ⟨{ scan with timers := { sampled with node := Function.update sampled.node address stats }, lastsample,
                        label := .pass }, ?_, rfl, behind', _,
      { linked := final, busy := idle', cur, old, count := count', passed := kept }⟩
    have counting : (sampled.write address fun timer =>
        { timer with stats := timer.stats.add ((lastsample - start).setWidth 32) }) = _ := counted
    simp only [runTimer, called, if_neg ends, rescheduled, Timers.sample]
    rw [counting]

theorem scanned_visit {address : Nat} (scanned : Scanned first scan behind (address :: ahead))
    (label : scan.label = .visit) :
    ∃ next, scanTurn clock behaviour scan = .again next ∧ next.inums = scan.inums ∧
      ∃ behind' ahead', Scanned first next behind' ahead' := by
  have cur : scan.cur = some address := scanned.cur
  obtain ⟨timer, node⟩ := some_of_alive (scanned.linked.here address (by simp))
  let sampled : Timers := { scan.timers with samples := scan.timers.samples + 1 }
  have linked : Linked sampled (behind ++ address :: ahead) := linked_sample scanned.linked _
  have step : scanTurn clock behaviour scan =
      if timer.flags &&& apeTimerIsCleared ≠ 0#32 then .again { scan with label := .destroy }
      else if (timer.schedule - 150000#64).ule (clock scan.timers.samples) then
        runTimer clock behaviour scan sampled address (clock scan.timers.samples)
      else .again { scan with timers := sampled, label := .pass } := by
    simp only [scanTurn, cur, node, label, Timers.sample, sampled]
  rw [step]
  by_cases cleared : timer.flags &&& apeTimerIsCleared ≠ 0#32
  · rw [if_pos cleared]
    exact ⟨_, rfl, rfl, behind, address :: ahead,
      { linked := scanned.linked, busy := scanned.busy, cur, old := scanned.old, count := scanned.count,
        passed := scanned.passed }⟩
  · rw [if_neg cleared]
    by_cases due : (timer.schedule - 150000#64).ule (clock scan.timers.samples) = true
    · rw [if_pos due]
      exact scanned_run scanned linked scanned.busy scanned.count scanned.passed _
    · rw [if_neg due]
      exact ⟨_, rfl, rfl, behind, address :: ahead,
        { linked, busy := scanned.busy, cur, old := scanned.old, count := scanned.count, passed := scanned.passed }⟩

theorem scanned_pass {address : Nat} (scanned : Scanned first scan behind (address :: ahead))
    (label : scan.label = .pass) {timer : Timer} (node : scan.timers.node address = some timer) :
    ∃ next, scanTurn clock behaviour scan = .again next ∧
      next.inums = (if timer.schedule.ult scan.inums then timer.schedule else scan.inums) ∧
      ∃ behind' ahead', Scanned first next behind' ahead' := by
  have cur : scan.cur = some address := scanned.cur
  have forward : timer.next = ahead.head? := by
    have points := double_next scanned.linked.double
    rw [followers, node] at points
    exact points
  let inums := if timer.schedule.ult scan.inums then timer.schedule else scan.inums
  refine ⟨{ scan with cur := timer.next, inums, label := .visit }, by simp only [scanTurn, cur, node, label, inums], rfl,
    behind ++ [address], ahead, ?_⟩
  refine { linked := ?_, busy := scanned.busy, cur := forward, old := ?_, count := scanned.count, passed := ?_ }
  · rw [List.append_assoc]
    exact scanned.linked
  · exact fun other member => scanned.old other (List.mem_cons_of_mem _ member)
  · intro other member old found holds
    have less : inums.toNat ≤ scan.inums.toNat ∧ inums.toNat ≤ timer.schedule.toNat := by
      simp only [inums]
      split
      · rename_i smaller
        rw [BitVec.ult, decide_eq_true_eq] at smaller
        omega
      · rename_i smaller
        rw [BitVec.ult, decide_eq_true_eq] at smaller
        omega
    rcases List.mem_append.mp member with before | here
    · exact less.1.trans (scanned.passed other before old found holds)
    · cases List.mem_singleton.mp here
      cases node.symm.trans holds
      exact less.2

theorem scanned_destroy {address : Nat} (scanned : Scanned first scan behind (address :: ahead))
    (label : scan.label = .destroy) :
    ∃ next, scanTurn clock behaviour scan = .again next ∧ next.inums = scan.inums ∧
      (SparesNext clock behaviour scan → ∃ behind' ahead', Scanned first next behind' ahead') := by
  have cur : scan.cur = some address := scanned.cur
  have member : address ∈ behind ++ address :: ahead := by simp
  obtain ⟨timer, node⟩ := some_of_alive (scanned.linked.here address member)
  have forward : timer.next = ahead.head? := by
    have points := double_next scanned.linked.double
    rw [followers, node] at points
    exact points
  obtain ⟨new, list', destroyed, follows, dead⟩ :=
    @destroy_follows clock behaviour _ _ scanned.linked address member scanned.busy timer node
  obtain ⟨behind', split, passed⟩ := passed_follows follows scanned.count scanned.passed
  rw [List.filter_cons_of_neg (by simp [dead])] at split
  refine ⟨{ scan with timers := new, cur := timer.next, label := .visit }, ?_, rfl, fun spares => ?_⟩
  · simp only [scanTurn, cur, node, label, destroyed]
  · refine ⟨behind', ahead.filter (alive new), ?_⟩
    refine { linked := split ▸ follows.linked, busy := follows.busy.trans scanned.busy, cur := ?_, old := ?_,
             count := scanned.count.trans follows.count, passed }
    · cases ahead with
      | nil => exact forward
      | cons second ahead =>
        have next : timer.next = some second := forward
        rw [next] at destroyed
        have still := spares label address new second cur destroyed
        rw [List.filter_cons_of_pos still]
        exact next
    · exact fun other inside => scanned.old other (List.mem_cons_of_mem _ (List.mem_filter.mp inside).1)

/-- A turn of the scan ends it, or leaves it in the list as long as the next timer is spared. -/
theorem scanned_turn (scanned : Scanned first scan behind ahead) :
    (ahead = [] ∧ scanTurn clock behaviour scan = .done (.ok scan)) ∨
      ∃ next, scanTurn clock behaviour scan = .again next ∧ next.inums.toNat ≤ scan.inums.toNat ∧
        (SparesNext clock behaviour scan → ∃ behind' ahead', Scanned first next behind' ahead') := by
  cases ahead with
  | nil =>
    have cur : scan.cur = none := scanned.cur
    exact .inl ⟨rfl, by simp only [scanTurn, cur]⟩
  | cons address ahead =>
    cases label : scan.label with
    | visit =>
      obtain ⟨next, turn, inums, still⟩ := @scanned_visit clock behaviour _ _ _ _ address scanned label
      exact .inr ⟨next, turn, by rw [inums], fun _ => still⟩
    | destroy =>
      obtain ⟨next, turn, inums, still⟩ := @scanned_destroy clock behaviour _ _ _ _ address scanned label
      exact .inr ⟨next, turn, by rw [inums], still⟩
    | pass =>
      obtain ⟨timer, node⟩ := some_of_alive (scanned.linked.here address (by simp))
      obtain ⟨next, turn, inums, still⟩ := @scanned_pass clock behaviour _ _ _ _ address scanned label timer node
      refine .inr ⟨next, turn, ?_, fun _ => still⟩
      rw [inums]
      split
      · rename_i smaller
        rw [BitVec.ult, decide_eq_true_eq] at smaller
        exact smaller.le
      · exact le_refl _

end Turns

section Process

variable {clock : Nat → BitVec 64} {behaviour : Nat → TimerCallback} {timers after : Timers} {list : List Nat}

theorem scanned_start (linked : Linked timers list) (idle : timers.busy = [])
    (done : timers.processAsync clock behaviour = .ok after) (spares : SparesHead clock behaviour timers) :
    ∃ behind ahead, Scanned timers.count { timers := after, cur := timers.head } behind ahead := by
  obtain ⟨new, list', processed, follows⟩ := @processAsync_follows clock behaviour timers list linked
  cases processed.symm.trans done
  obtain ⟨fresh, order, newer⟩ := follows.order
  have head : timers.head = list.head? := double_head linked.double
  refine ⟨fresh, list.filter (alive after), ?_⟩
  refine { linked := order ▸ follows.linked, busy := follows.busy.trans idle, cur := ?_, old := ?_, count := follows.count,
           passed := ?_ }
  · cases list with
    | nil => exact head
    | cons first list =>
      rw [List.filter_cons_of_pos (spares after first done head)]
      exact head
  · exact fun address member => linked.below address (linked.here address (List.mem_filter.mp member).1)
  · exact fun address member old => absurd (newer address member) (Nat.not_le.mpr old)

/-- The scan goes through the list as long as the timers that it holds are spared. -/
theorem scanned_visits (linked : Linked timers list) (idle : timers.busy = [])
    (done : timers.processAsync clock behaviour = .ok after) (head : SparesHead clock behaviour timers)
    (next : ∀ scan, Visits (scanTurn clock behaviour) { timers := after, cur := timers.head } scan →
      SparesNext clock behaviour scan) {scan : Scan}
    (visits : Visits (scanTurn clock behaviour) { timers := after, cur := timers.head } scan) :
    ∃ behind ahead, Scanned timers.count scan behind ahead := by
  induction visits with
  | start => exact scanned_start linked idle done head
  | @turn scan following visits again ih =>
    obtain ⟨behind, ahead, scanned⟩ := ih
    rcases @scanned_turn clock behaviour _ _ _ _ scanned with ⟨-, stops⟩ | ⟨found, turn, -, still⟩
    · cases stops.symm.trans again
    · cases turn.symm.trans again
      exact still (next scan visits)

theorem finish_ok {scan : Scan} (linked : Linked scan.timers list) :
    ∃ result, finishScan clock behaviour scan = .ok result := by
  obtain ⟨new, list', done, -⟩ := @processAsync_follows clock behaviour _ _ linked
  rw [finishScan, done]
  exact ⟨_, rfl⟩

theorem scan_runs (done : timers.processAsync clock behaviour = .ok after) (fuel : Nat) :
    scanTimers clock behaviour fuel timers = loop (scanTurn clock behaviour) fuel { timers := after, cur := timers.head } := by
  simp only [scanTimers, done]

theorem head_freed (unspared : ¬ SparesHead clock behaviour timers) :
    ∃ fuel, scanTimers clock behaviour fuel timers = some (.error .wildPointer) := by
  simp only [SparesHead, not_forall] at unspared
  obtain ⟨after, head, done, first, dead⟩ := unspared
  have freed : after.node head = none := Option.not_isSome_iff_eq_none.mp dead
  have turn : scanTurn clock behaviour { timers := after, cur := timers.head } = .done (.error .wildPointer) := by
    simp only [scanTurn, first, freed]
  exact ⟨1, (scan_runs done 1).trans (loop_done turn 0)⟩

theorem next_freed (done : timers.processAsync clock behaviour = .ok after) {scan : Scan}
    (visits : Visits (scanTurn clock behaviour) { timers := after, cur := timers.head } scan)
    (unspared : ¬ SparesNext clock behaviour scan) :
    ∃ fuel, scanTimers clock behaviour fuel timers = some (.error .wildPointer) := by
  simp only [SparesNext, not_forall] at unspared
  obtain ⟨label, address, left, next, cur, destroyed, dead⟩ := unspared
  have freed : left.node next = none := Option.not_isSome_iff_eq_none.mp dead
  obtain ⟨timer, node⟩ : ∃ timer, scan.timers.node address = some timer := by
    cases node : scan.timers.node address with
    | none => simp [Timers.apeTimerDestroy, node] at destroyed
    | some timer => exact ⟨timer, rfl⟩
  have turn : scanTurn clock behaviour scan = .again { scan with timers := left, cur := some next, label := .visit } := by
    simp only [scanTurn, cur, node, label, destroyed]
  have stops : scanTurn clock behaviour { scan with timers := left, cur := some next, label := .visit } =
      .done (.error .wildPointer) := by
    simp only [scanTurn, freed]
  obtain ⟨fuel, returned⟩ := loop_of_visits (visits.turn turn) (loop_done stops 0)
  exact ⟨fuel, (scan_runs done fuel).trans returned⟩

end Process

def noTimers : Timers where
  node := fun _ => none
  count := 0
  head := none

theorem linked_none : Linked noTimers [] where
  double := rfl
  nodup := List.nodup_nil
  here := nofun
  below := nofun
  others := nofun

def timerAndAsync : Except Fault Timers := noTimers.performAll (fun _ => 0#64) [.create 0#32 false, .async false]

def destroysFirst : Nat → TimerCallback := fun _ => { calls := [.destroy 0 []] }

def faultOf {α : Type} : Except Fault α → Option Fault
  | .ok _ => none
  | .error fault => some fault

end ZapeProof
