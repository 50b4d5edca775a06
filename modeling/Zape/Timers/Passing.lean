import Zape.Timers.Growing
import Zape.Timers.Timeout

/-! A pass of `ape_timers_process` goes once through the timers that are there when it starts. -/
namespace ZapeProof

open Machine ZapeModel

section Definitions

variable (clock : Nat → BitVec 64) (behaviour : Nat → TimerCallback)

/-- In this turn the callback of the timer at the cursor is called. -/
def RunsCallback (scan : Scan) : Prop :=
  ∃ next, scanTurn clock behaviour scan = .again next ∧ next.timers.calls = scan.timers.calls + 1

/-- What its callback returned is -1, or the milliseconds until it is due again. -/
def replanned (start : BitVec 64) (ret : BitVec 32) (plan : Plan) : Plan :=
  let ticksNeeds := if ret = BitVec.allOnes 32 then plan.ticksNeeds else ret.signExtend 64 * 1000000#64
  { schedule := start + ticksNeeds, ticksNeeds }

/-- What becomes of a timer that the scan has reached. -/
structure Handled (scan : Scan) (timer : Timer) (left : Option Plan) : Prop where
  runs : 150000 ≤ timer.schedule.toNat →
    (RunsCallback clock behaviour scan ↔ timer.flags &&& apeTimerIsCleared = 0#32 ∧
      timer.schedule.toNat ≤ (clock scan.timers.samples).toNat + 150000)
  removed : left = none ↔ timer.flags &&& apeTimerIsCleared ≠ 0#32 ∨
    RunsCallback clock behaviour scan ∧ (behaviour scan.timers.calls).ret = 0#32
  rescheduled : RunsCallback clock behaviour scan → (behaviour scan.timers.calls).ret ≠ 0#32 →
    left = some (replanned (clock scan.timers.samples) (behaviour scan.timers.calls).ret (planOf timer))
  waits : timer.flags &&& apeTimerIsCleared = 0#32 → ¬ RunsCallback clock behaviour scan → left = some (planOf timer)

/-- The scan begins with the timer at the cursor. -/
def begins (scan : Scan) : Bool := decide (scan.label = .visit) && scan.cur.isSome

/-- Where the pass begins with a timer. -/
def reached (fuel : Nat) (timers : Timers) : List Scan :=
  match timers.processAsync clock behaviour with
  | .error _ => []
  | .ok after => (turns (scanTurn clock behaviour) fuel { timers := after, cur := timers.head }).filter begins

/-- The scan has gone through some of the timers that were ahead. -/
structure Walked (scan : Scan) (behind walked ahead : List Nat) (states : List Scan) (last : Scan) : Prop where
  leads : Stretch (scanTurn clock behaviour) scan states last
  label : last.label = .visit
  cur : last.cur = ahead.head?
  idle : last.timers.busy = []
  count : scan.timers.count ≤ last.timers.count
  linked : Linked last.timers
    (newborn scan.timers.count last.timers.count ++ (behind ++ (walked.filter (alive last.timers) ++ ahead)))
  others : ∀ other < scan.timers.count, other ∉ walked → plans last.timers other = plans scan.timers other
  cursors : (states.filter begins).map (·.cur) = walked.map some
  handled : ∀ state ∈ states.filter begins, ∃ address timer, address ∈ walked ∧ state.timers.node address = some timer ∧
    state.cur = some address ∧ plans scan.timers address = some (planOf timer) ∧
    Handled clock behaviour state timer (plans last.timers address)

end Definitions

section Turns

variable {clock : Nat → BitVec 64} {behaviour : Nat → TimerCallback} {scan middle last : Scan}
  {behind ahead : List Nat} {address : Nat}

theorem destroy_turn (spares : ∀ call, DestroysNone (behaviour call).calls)
    (linked : Linked scan.timers (behind ++ address :: ahead)) (idle : scan.timers.busy = [])
    (cur : scan.cur = some address) (label : scan.label = .destroy) :
    ∃ next, scanTurn clock behaviour scan = .again next ∧ next.label = .visit ∧ next.cur = ahead.head? ∧
      next.timers.busy = [] ∧ scan.timers.count ≤ next.timers.count ∧
      Linked next.timers (newborn scan.timers.count next.timers.count ++ (behind ++ ahead)) ∧
      plans next.timers address = none ∧
      ∀ other < scan.timers.count, other ≠ address → plans next.timers other = plans scan.timers other := by
  have member : address ∈ behind ++ address :: ahead := by simp
  obtain ⟨timer, node⟩ := some_of_alive (linked.here address member)
  have forward : timer.next = ahead.head? := by
    have points := double_next linked.double
    rw [followers, node] at points
    exact points
  obtain ⟨new, destroyed, left, count, idle', gone, others⟩ :=
    @destroy_grown clock _ _ behaviour spares linked address member idle timer node
  rw [filter_apart linked.nodup] at left
  refine ⟨{ scan with timers := new, cur := timer.next, label := .visit }, ?_, rfl, forward, idle', count, left, gone, others⟩
  simp only [scanTurn, cur, node, label, destroyed]

theorem pass_turn (linked : Linked scan.timers (behind ++ address :: ahead)) (cur : scan.cur = some address)
    (label : scan.label = .pass) :
    ∃ next, scanTurn clock behaviour scan = .again next ∧ next.label = .visit ∧ next.cur = ahead.head? ∧
      next.timers = scan.timers := by
  obtain ⟨timer, node⟩ := some_of_alive (linked.here address (by simp))
  have forward : timer.next = ahead.head? := by
    have points := double_next linked.double
    rw [followers, node] at points
    exact points
  let inums := if timer.schedule.ult scan.inums then timer.schedule else scan.inums
  refine ⟨{ scan with cur := timer.next, inums, label := .visit }, ?_, rfl, forward, rfl⟩
  simp only [scanTurn, cur, node, label, inums]

theorem signExtend_eq {left right : BitVec 32} : left.signExtend 64 = right.signExtend 64 ↔ left = right := by
  constructor
  · intro same
    apply BitVec.eq_of_toInt_eq
    rw [← BitVec.toInt_signExtend_of_le (show 32 ≤ 64 by decide), same,
      BitVec.toInt_signExtend_of_le (show 32 ≤ 64 by decide)]
  · intro same
    rw [same]

/-- The writes of a pass to the timer that ran leave everything else as it is. -/
theorem write_kept {timers : Timers} {list : List Nat} {timer : Timer} (linked : Linked timers list)
    (node : timers.node address = some timer) {change : Timer → Timer} (next : (change timer).next = timer.next)
    (prev : (change timer).prev = timer.prev) :
    ∃ new, timers.write address change = .ok new ∧ Linked new list ∧ new.node address = some (change timer) ∧
      new.count = timers.count ∧ new.calls = timers.calls ∧ new.busy = timers.busy ∧
      ∀ other ≠ address, plans new other = plans timers other :=
  ⟨_, write_ok node change, (sameLinks_write node next prev).linked linked, Function.update_self _ _ _, rfl, rfl, rfl,
    fun _ differ => plans_update _ differ⟩

/-- The callback was called, and the timer goes on to be destroyed or has a new plan. -/
theorem run_turn (spares : ∀ call, DestroysNone (behaviour call).calls) {timers : Timers} {timer : Timer}
    (linked : Linked timers (behind ++ address :: ahead)) (idle : timers.busy = [])
    (node : timers.node address = some timer) (start : BitVec 64) :
    ∃ next, runTimer clock behaviour scan timers address start = .again next ∧ next.cur = scan.cur ∧
      next.timers.busy = [] ∧ timers.count ≤ next.timers.count ∧ next.timers.calls = timers.calls + 1 ∧
      Linked next.timers (newborn timers.count next.timers.count ++ (behind ++ address :: ahead)) ∧
      next.label = (if (behaviour timers.calls).ret = 0#32 then .destroy else .pass) ∧
      plans next.timers address = some (if (behaviour timers.calls).ret = 0#32 then planOf timer
        else replanned start (behaviour timers.calls).ret (planOf timer)) ∧
      ∀ other < timers.count, other ≠ address → plans next.timers other = plans timers other := by
  have member : address ∈ behind ++ address :: ahead := by simp
  obtain ⟨after, called, grown, calls⟩ := @call_grown clock _ _ behaviour spares (linked_enter linked address)
  have inside : address < timers.count := linked.below address (alive_some node)
  have running : after.busy = [address] := grown.busy.trans (congrArg (address :: ·) idle)
  have left : Linked after.leave (newborn timers.count after.count ++ (behind ++ address :: ahead)) :=
    linked_leave grown.linked running (List.mem_append_right _ member)
  have idle' : after.leave.busy = [] := by
    show after.busy.tail = []
    rw [running]
    rfl
  have own : plans after.leave address = some (planOf timer) := (grown.plans address inside).trans (plans_some node)
  have same : (timers.enter address).calls = timers.calls := rfl
  rw [same] at called calls
  have zero : (behaviour timers.calls).ret.signExtend 64 = 0#64 ↔ (behaviour timers.calls).ret = 0#32 :=
    @signExtend_eq _ 0#32
  have minus : (behaviour timers.calls).ret.signExtend 64 = uint64Max ↔ (behaviour timers.calls).ret = BitVec.allOnes 32 :=
    @signExtend_eq _ (BitVec.allOnes 32)
  by_cases ends : (behaviour timers.calls).ret = 0#32
  · refine ⟨{ scan with timers := after.leave, label := .destroy }, ?_, rfl, idle', grown.count, calls, left,
      (if_pos ends).symm, ?_, fun other old _ => grown.plans other old⟩
    · simp only [runTimer, called, if_pos (zero.mpr ends)]
    · rw [if_pos ends]
      exact own
  · obtain ⟨timer', node'⟩ := some_of_alive (left.here address (List.mem_append_right _ member))
    have plan : planOf timer' = planOf timer := Option.some.inj ((plans_some node').symm.trans own)
    let change := fun timer : Timer =>
      if (behaviour timers.calls).ret.signExtend 64 = uint64Max then { timer with schedule := start + timer.ticksNeeds }
      else { timer with ticksNeeds := (behaviour timers.calls).ret.signExtend 64 * 1000000#64,
                        schedule := start + (behaviour timers.calls).ret.signExtend 64 * 1000000#64 }
    obtain ⟨later, rescheduled, linked', own', count', calls', busy', others'⟩ := @write_kept address _ _ _ left node' change
      (by simp only [change]; split <;> rfl) (by simp only [change]; split <;> rfl)
    have writing : reschedule after.leave address start ((behaviour timers.calls).ret.signExtend 64) = .ok later := rescheduled
    let sampled : Timers := { later with samples := later.samples + 1 }
    let lastsample := clock later.samples
    let measure := fun timer : Timer => { timer with stats := timer.stats.add ((lastsample - start).setWidth 32) }
    obtain ⟨final, counted, linked'', own'', count'', calls'', busy'', others''⟩ :=
      @write_kept address sampled _ _ (linked_sample linked' _) own' measure rfl rfl
    have counting : (sampled.write address fun timer =>
        { timer with stats := timer.stats.add ((lastsample - start).setWidth 32) }) = .ok final := counted
    have total : final.count = after.count := count''.trans count'
    refine ⟨{ scan with timers := final, lastsample, label := .pass }, ?_, rfl, ?_, ?_, ?_, ?_, (if_neg ends).symm, ?_, ?_⟩
    · simp only [runTimer, called, if_neg (mt zero.mp ends), writing, Timers.sample]
      rw [counting]
    · exact busy''.trans (busy'.trans idle')
    · exact grown.count.trans_eq total.symm
    · exact calls''.trans (calls'.trans calls)
    · show Linked final _
      rw [total]
      exact linked''
    · rw [if_neg ends, plans_some own'', ← plan]
      by_cases keeps : (behaviour timers.calls).ret = BitVec.allOnes 32
      · simp only [measure, change, planOf, replanned, if_pos (minus.mpr keeps), if_pos keeps]
      · simp only [measure, change, planOf, replanned, if_neg (mt minus.mp keeps), if_neg keeps]
    · intro other old differ
      rw [others'' other differ]
      exact (others' other differ).trans (grown.plans other old)

theorem begins_visit (label : scan.label = .visit) (cur : scan.cur = some address) : begins scan = true := by
  rw [begins, label, cur]
  rfl

theorem begins_not (label : scan.label ≠ .visit) : begins scan = false := by
  rw [begins, decide_eq_false label, Bool.false_and]

theorem due_iff {schedule start : BitVec 64} (late : 150000 ≤ schedule.toNat) :
    (schedule - 150000#64).ule start = true ↔ schedule.toNat ≤ start.toNat + 150000 := by
  have bound : schedule.toNat < 18446744073709551616 := schedule.isLt
  have whole : (schedule - 150000#64).toNat = schedule.toNat - 150000 := by
    rw [BitVec.toNat_sub]
    show (18446744073709551616 - 150000 + schedule.toNat) % 18446744073709551616 = _
    omega
  rw [BitVec.ule, decide_eq_true_eq, whole]
  omega

theorem walked_two {timer : Timer} (node : scan.timers.node address = some timer) (cur : scan.cur = some address)
    (label : scan.label = .visit) (between : middle.label ≠ .visit) (turn : scanTurn clock behaviour scan = .again middle)
    (turn' : scanTurn clock behaviour middle = .again last) (label' : last.label = .visit) (cur' : last.cur = ahead.head?)
    (idle : last.timers.busy = []) (count : scan.timers.count ≤ last.timers.count)
    (linked : Linked last.timers
      (newborn scan.timers.count last.timers.count ++ (behind ++ ([address].filter (alive last.timers) ++ ahead))))
    (others : ∀ other < scan.timers.count, other ≠ address → plans last.timers other = plans scan.timers other)
    (handled : Handled clock behaviour scan timer (plans last.timers address)) :
    Walked clock behaviour scan behind [address] ahead [scan, middle] last := by
  have only : [scan, middle].filter begins = [scan] := by
    rw [List.filter_cons_of_pos (begins_visit label cur), List.filter_cons_of_neg (by rw [begins_not between]; decide)]
    rfl
  refine { leads := .turn turn (.turn turn' (.stay last)), label := label', cur := cur', idle, count, linked, others := ?_,
           cursors := ?_, handled := ?_ }
  · exact fun other old apart => others other old (List.ne_of_not_mem_cons apart)
  · rw [only, List.map_singleton, cur, List.map_singleton]
  · intro state reached
    rw [only, List.mem_singleton] at reached
    subst reached
    exact ⟨address, timer, List.mem_singleton_self _, node, cur, plans_some node, handled⟩

/-- The rest of the turns for a timer, once it is known whether it will be destroyed. -/
theorem walked_timer (spares : ∀ call, DestroysNone (behaviour call).calls) {timer : Timer}
    (node : scan.timers.node address = some timer) (cur : scan.cur = some address) (label : scan.label = .visit)
    (turn : scanTurn clock behaviour scan = .again middle) (cur' : middle.cur = scan.cur)
    (idle : middle.timers.busy = []) (count : scan.timers.count ≤ middle.timers.count)
    (linked : Linked middle.timers (newborn scan.timers.count middle.timers.count ++ (behind ++ address :: ahead)))
    (others : ∀ other < scan.timers.count, other ≠ address → plans middle.timers other = plans scan.timers other)
    (fate : middle.label = .destroy ∧ Handled clock behaviour scan timer none ∨
      middle.label = .pass ∧ Handled clock behaviour scan timer (plans middle.timers address)) :
    ∃ states last, Walked clock behaviour scan behind [address] ahead states last := by
  have here : alive middle.timers address = true := linked.here address (by simp)
  rw [← List.append_assoc] at linked
  rcases fate with ⟨destroys, handled⟩ | ⟨passes, handled⟩
  · obtain ⟨last, turn', label', forward, idle', count', linked', gone, others'⟩ :=
      @destroy_turn clock behaviour middle _ ahead address spares linked idle (cur'.trans cur) destroys
    have dead : [address].filter (alive last.timers) = [] := by
      rw [List.filter_cons_of_neg (by rw [alive_plans, gone]; decide)]
      rfl
    refine ⟨[scan, middle], last, walked_two node cur label (by simp [destroys]) turn turn' label' forward idle'
      (count.trans count') ?_ ?_ (gone ▸ handled)⟩
    · rw [dead, List.nil_append, ← newborn_append count count']
      rw [List.append_assoc] at linked' ⊢
      exact linked'
    · exact fun other old differ => (others' other (old.trans_le count) differ).trans (others other old differ)
  · obtain ⟨last, turn', label', forward, same⟩ :=
      @pass_turn clock behaviour middle _ ahead address linked (cur'.trans cur) passes
    have kept : [address].filter (alive middle.timers) = [address] := by
      rw [List.filter_cons_of_pos here]
      rfl
    rw [← same] at idle count others handled
    refine ⟨[scan, middle], last, walked_two node cur label (by simp [passes]) turn turn' label' forward idle count ?_ others
      handled⟩
    rw [same, kept, List.singleton_append, ← List.append_assoc]
    exact linked

/-- The timer at the cursor is handled in the turns up to the next one. -/
theorem visit_walked (spares : ∀ call, DestroysNone (behaviour call).calls)
    (linked : Linked scan.timers (behind ++ address :: ahead)) (idle : scan.timers.busy = [])
    (cur : scan.cur = some address) (label : scan.label = .visit) :
    ∃ states last, Walked clock behaviour scan behind [address] ahead states last := by
  obtain ⟨timer, node⟩ := some_of_alive (linked.here address (by simp))
  let sampled : Timers := { scan.timers with samples := scan.timers.samples + 1 }
  have step : scanTurn clock behaviour scan =
      if timer.flags &&& apeTimerIsCleared ≠ 0#32 then .again { scan with label := .destroy }
      else if (timer.schedule - 150000#64).ule (clock scan.timers.samples) then
        runTimer clock behaviour scan sampled address (clock scan.timers.samples)
      else .again { scan with timers := sampled, label := .pass } := by
    simp only [scanTurn, cur, node, label, Timers.sample, sampled]
  have none_new : Linked scan.timers (newborn scan.timers.count scan.timers.count ++ (behind ++ address :: ahead)) := by
    rw [newborn_self]
    exact linked
  by_cases cleared : timer.flags &&& apeTimerIsCleared ≠ 0#32
  · rw [if_pos cleared] at step
    have idles : ¬ RunsCallback clock behaviour scan := by
      rintro ⟨next, turn, more⟩
      cases step.symm.trans turn
      exact Nat.succ_ne_self _ more.symm
    apply walked_timer spares node cur label step rfl idle (le_refl _) none_new (fun _ _ _ => rfl) (.inl ⟨rfl, ?_⟩)
    exact { runs := fun _ => ⟨fun runs => absurd runs idles, fun calm => absurd calm.1 cleared⟩
            removed := ⟨fun _ => .inl cleared, fun _ => rfl⟩
            rescheduled := fun runs => absurd runs idles
            waits := fun calm => absurd calm cleared }
  · rw [if_neg cleared] at step
    have calm := not_not.mp cleared
    by_cases due : (timer.schedule - 150000#64).ule (clock scan.timers.samples) = true
    · rw [if_pos due] at step
      obtain ⟨middle, turn, cur', idle', count, calls, linked', label', plan, others⟩ :=
        @run_turn clock behaviour scan behind ahead address spares sampled timer (linked_sample linked _) idle node
          (clock scan.timers.samples)
      have runs : RunsCallback clock behaviour scan := ⟨middle, step.trans turn, calls⟩
      have sound : 150000 ≤ timer.schedule.toNat → (RunsCallback clock behaviour scan ↔
          timer.flags &&& apeTimerIsCleared = 0#32 ∧ timer.schedule.toNat ≤ (clock scan.timers.samples).toNat + 150000) :=
        fun late => ⟨fun _ => ⟨calm, (due_iff late).mp due⟩, fun _ => runs⟩
      apply walked_timer spares node cur label (step.trans turn) cur' idle' count linked' others
      by_cases ends : (behaviour scan.timers.calls).ret = 0#32
      · refine .inl ⟨label'.trans (if_pos ends), ?_⟩
        exact { runs := sound, removed := ⟨fun _ => .inr ⟨runs, ends⟩, fun _ => rfl⟩
                rescheduled := fun _ goes => absurd ends goes, waits := fun _ idles => absurd runs idles }
      · refine .inr ⟨label'.trans (if_neg ends), ?_⟩
        rw [plan]
        refine { runs := sound, removed := ⟨fun none => absurd none (Option.some_ne_none _), ?_⟩
                 rescheduled := fun _ _ => congrArg some (if_neg ends), waits := fun _ idles => absurd runs idles }
        rintro (gone | ⟨-, returned⟩)
        · exact absurd calm gone
        · exact absurd returned ends
    · rw [if_neg due] at step
      have idles : ¬ RunsCallback clock behaviour scan := by
        rintro ⟨next, turn, more⟩
        cases step.symm.trans turn
        exact Nat.succ_ne_self _ more.symm
      apply walked_timer spares node cur label step rfl idle (le_refl _) (linked_sample none_new _) (fun _ _ _ => rfl)
        (.inr ⟨rfl, ?_⟩)
      have plan : plans sampled address = some (planOf timer) := plans_some node
      show Handled clock behaviour scan timer (plans sampled address)
      rw [plan]
      refine { runs := fun late => ⟨fun runs => absurd runs idles, fun both => absurd ((due_iff late).mpr both.2) due⟩
               removed := ⟨fun none => absurd none (Option.some_ne_none _), ?_⟩
               rescheduled := fun runs => absurd runs idles, waits := fun _ _ => rfl }
      rintro (gone | ⟨runs, -⟩)
      · exact absurd calm gone
      · exact absurd runs idles

theorem walked_trans {walked more : List Nat} {states states' : List Scan}
    (linked : Linked scan.timers (behind ++ (walked ++ (more ++ ahead))))
    (first : Walked clock behaviour scan behind walked (more ++ ahead) states middle)
    (second : Walked clock behaviour middle
      (newborn scan.timers.count middle.timers.count ++ (behind ++ walked.filter (alive middle.timers)))
      more ahead states' last) :
    Walked clock behaviour scan behind (walked ++ more) ahead (states ++ states') last := by
  have nodup : (walked ++ (more ++ ahead)).Nodup := (List.nodup_append.mp linked.nodup).2.1
  have apart : ∀ address ∈ walked, address ∉ more := by
    intro address member again
    exact (List.nodup_append.mp nodup).2.2 address member address (List.mem_append_left _ again) rfl
  have inside : ∀ address ∈ walked ++ more, address < scan.timers.count := by
    intro address member
    apply linked.below address (linked.here address _)
    rw [← List.append_assoc walked]
    exact List.mem_append_right _ (List.mem_append_left _ member)
  have kept : ∀ address ∈ walked, plans last.timers address = plans middle.timers address := fun address member =>
    second.others address ((inside address (List.mem_append_left _ member)).trans_le first.count) (apart address member)
  have still : walked.filter (alive middle.timers) = walked.filter (alive last.timers) := by
    apply List.filter_congr
    intro address member
    rw [alive_plans, alive_plans, kept address member]
  refine { leads := stretch_trans first.leads second.leads, label := second.label, cur := second.cur, idle := second.idle,
           count := first.count.trans second.count, linked := ?_, others := ?_, cursors := ?_, handled := ?_ }
  · have end_linked := second.linked
    rw [still] at end_linked
    rw [← newborn_append first.count second.count, List.filter_append]
    simp only [List.append_assoc] at end_linked ⊢
    exact end_linked
  · intro other old outside
    rw [List.mem_append, not_or] at outside
    exact (second.others other (old.trans_le first.count) outside.2).trans (first.others other old outside.1)
  · rw [List.filter_append, List.map_append, List.map_append, first.cursors, second.cursors]
  · intro state reached
    rw [List.filter_append, List.mem_append] at reached
    rcases reached with early | late
    · obtain ⟨address, timer, member, node, cur, plan, handled⟩ := first.handled state early
      refine ⟨address, timer, List.mem_append_left _ member, node, cur, plan, ?_⟩
      rw [kept address member]
      exact handled
    · obtain ⟨address, timer, member, node, cur, plan, handled⟩ := second.handled state late
      have old := inside address (List.mem_append_right _ member)
      refine ⟨address, timer, List.mem_append_right _ member, node, cur, ?_, handled⟩
      rw [← first.others address old fun again => apart address again member]
      exact plan

/-- The induction is on the timers ahead, each of which is still there when the scan comes to it. -/
theorem scan_walked (spares : ∀ call, DestroysNone (behaviour call).calls) (linked : Linked scan.timers (behind ++ ahead))
    (idle : scan.timers.busy = []) (cur : scan.cur = ahead.head?) (label : scan.label = .visit) :
    ∃ states last, Walked clock behaviour scan behind ahead [] states last := by
  induction ahead generalizing scan behind with
  | nil =>
    refine ⟨[], scan,
      { leads := .stay scan, label, cur, idle, count := le_refl _, linked := ?_, others := fun _ _ _ => rfl, cursors := rfl,
        handled := fun _ none => absurd none List.not_mem_nil }⟩
    rw [newborn_self]
    exact linked
  | cons address ahead ih =>
    obtain ⟨states, middle, first⟩ := @visit_walked clock behaviour scan behind ahead address spares linked idle cur label
    have later := first.linked
    rw [← List.append_assoc behind, ← List.append_assoc] at later
    obtain ⟨states', last, second⟩ := ih later first.idle first.cur first.label
    rw [← List.append_nil ahead] at first
    refine ⟨states ++ states', last, walked_trans ?_ first second⟩
    rw [List.append_nil]
    exact linked

end Turns

section Passes

variable {clock : Nat → BitVec 64} {behaviour : Nat → TimerCallback} {timers after : Timers} {list : List Nat}

theorem finish_kept {scan : Scan} (done : scan.timers.processAsync clock behaviour = .ok after) :
    ∃ result, finishScan clock behaviour scan = .ok result ∧ SameLinks after result.1 ∧ result.1.node = after.node := by
  have same : ∀ samples, SameLinks after { after with samples } := fun _ =>
    { nexts := rfl, prevs := rfl, alive := rfl, head := rfl, count := rfl, busy := rfl, low := rfl }
  rw [finishScan, done]
  refine ⟨_, rfl, ?_⟩
  dsimp only
  by_cases nothing : scan.inums = uint64Max
  · rw [if_pos nothing]
    exact ⟨same after.samples, rfl⟩
  · rw [if_neg nothing]
    by_cases unsampled : scan.lastsample = 0#64
    · rw [if_pos unsampled]
      exact ⟨same (after.samples + 1), rfl⟩
    · rw [if_neg unsampled]
      exact ⟨same after.samples, rfl⟩

/-- A pass in which no callback destroys a timer, from its asyncs to its timeout. -/
theorem pass_walked (clock : Nat → BitVec 64) {behaviour : Nat → TimerCallback}
    (spares : ∀ call, DestroysNone (behaviour call).calls) {timers : Timers} {list : List Nat} (linked : Linked timers list)
    (idle : timers.busy = []) :
    ∃ after states last later final timeout, timers.processAsync clock behaviour = .ok after ∧ Grown timers list after ∧
      Walked clock behaviour { timers := after, cur := timers.head } (newborn timers.count after.count) list [] states last ∧
      (∀ fuel, states.length < fuel →
        loop (scanTurn clock behaviour) fuel { timers := after, cur := timers.head } = some (.ok last)) ∧
      finishScan clock behaviour last = .ok (final, timeout) ∧
      Grown last.timers (newborn after.count last.timers.count ++
        (newborn timers.count after.count ++ (list.filter (alive last.timers) ++ []))) later ∧
      SameLinks later final ∧ final.node = later.node := by
  obtain ⟨after, done, grown⟩ := @processAsync_grown clock timers list behaviour spares linked
  obtain ⟨states, last, walked⟩ := @scan_walked clock behaviour { timers := after, cur := timers.head }
    (newborn timers.count after.count) list spares grown.linked (grown.busy.trans idle) (double_head linked.double) rfl
  obtain ⟨later, finished, grown'⟩ := @processAsync_grown clock last.timers _ behaviour spares walked.linked
  obtain ⟨⟨final, timeout⟩, returned, same, nodes⟩ := finish_kept finished
  have ends : scanTurn clock behaviour last = .done (.ok last) := by
    have cur : last.cur = none := walked.cur
    simp only [scanTurn, cur]
  refine ⟨after, states, last, later, final, timeout, done, grown, walked, fun fuel enough => ?_, returned, grown', same, nodes⟩
  obtain ⟨-, looped⟩ := turns_stretch walked.leads 1
  rw [loop_done ends] at looped
  exact loop_mono looped enough

/-- As long as no callback destroys a timer, a pass goes once through the timers that are there when it starts, does with
    each of them what it should, and leaves those that stay behind the new ones. -/
theorem pass_handles (clock : Nat → BitVec 64) {behaviour : Nat → TimerCallback}
    (spares : ∀ call, DestroysNone (behaviour call).calls) {timers : Timers} {list : List Nat} (linked : Linked timers list)
    (idle : timers.busy = []) :
    ∃ fuel final timeout, apeTimersProcess clock behaviour fuel timers = some (.ok (final, timeout)) ∧
      (reached clock behaviour fuel timers).map (·.cur) = list.map some ∧
      (∀ scan ∈ reached clock behaviour fuel timers, ∃ address timer,
        scan.cur = some address ∧ scan.timers.node address = some timer ∧ plans timers address = some (planOf timer) ∧
        Handled clock behaviour scan timer (plans final address)) ∧
      Linked final (newborn timers.count final.count ++ list.filter (alive final)) := by
  obtain ⟨after, states, last, later, final, timeout, done, grown, walked, looped, returned, grown', same, nodes⟩ :=
    pass_walked clock spares linked idle
  have ends : scanTurn clock behaviour last = .done (.ok last) := by
    have cur : last.cur = none := walked.cur
    simp only [scanTurn, cur]
  obtain ⟨through, -⟩ := turns_stretch walked.leads 1
  have reaches : reached clock behaviour (states.length + 1) timers = states.filter begins := by
    have last_not : begins last = false := by
      rw [begins, walked.cur]
      exact Bool.and_false _
    simp only [reached, done]
    rw [through, List.filter_append]
    simp only [turns, ends, List.filter_cons, last_not, List.filter_nil, Bool.false_eq_true, ite_false, List.append_nil]
  have inside : ∀ address ∈ list, address < timers.count := fun address member =>
    linked.below address (linked.here address member)
  have kept : ∀ address ∈ list, plans final address = plans last.timers address := by
    intro address member
    rw [← grown'.plans address (((inside address member).trans_le grown.count).trans_le walked.count)]
    exact congrArg (Option.map planOf) (congrFun nodes address)
  refine ⟨states.length + 1, final, timeout, ?_, ?_, ?_, ?_⟩
  · rw [apeTimersProcess, scan_runs done, looped _ (Nat.lt_succ_self _)]
    exact congrArg some returned
  · rw [reaches]
    exact walked.cursors
  · intro scan found
    rw [reaches] at found
    obtain ⟨address, timer, member, node, cur, plan, handled⟩ := walked.handled scan found
    refine ⟨address, timer, cur, node, (grown.plans address (inside address member)).symm.trans plan, ?_⟩
    rw [kept address member]
    exact handled
  · have still : list.filter (alive last.timers) = list.filter (alive final) := by
      apply List.filter_congr
      intro address member
      rw [alive_plans, alive_plans, kept address member]
    have end_linked := same.linked grown'.linked
    have count : final.count = later.count := same.count
    have first : timers.count ≤ last.timers.count := grown.count.trans walked.count
    rw [still, List.append_nil] at end_linked
    rw [count, ← newborn_append first grown'.count, ← newborn_append grown.count walked.count]
    simp only [List.append_assoc] at end_linked ⊢
    exact end_linked

end Passes

theorem hour_linked : ∃ timers, hourAndAsync = .ok timers ∧ timers.count = 1 ∧ Linked timers [0] ∧ timers.busy = [] := by
  obtain ⟨timers, performed, grown, -⟩ := @performAll_grown atOneSecond noTimers [] linked_none
    [.create 3600000#32 false, .async false] (by simp [DestroysNone])
  have created : hourAndAsync = .ok timers := performed
  have seen : (hourAndAsync.map fun timers => timers.count) = .ok 1 := by rfl
  rw [created] at seen
  have count : timers.count = 1 := Except.ok.inj seen
  have linked := grown.linked
  rw [count] at linked
  exact ⟨timers, created, count, linked, grown.busy⟩

theorem creates_spares (ms : BitVec 32) : ∀ call, DestroysNone (creates ms call).calls := by
  simp [DestroysNone, creates]

/-- The pass over the timer of an hour, when the async that runs first creates another timer. -/
theorem hour_passes : ∃ timers fuel final timeout, hourAndAsync = .ok timers ∧ timers.count = 1 ∧
    apeTimersProcess atOneSecond (creates 0#32) fuel timers = some (.ok (final, timeout)) ∧
    (reached atOneSecond (creates 0#32) fuel timers).map (·.cur) = [some 0] ∧
    Linked final (newborn 1 final.count ++ [0].filter (alive final)) := by
  obtain ⟨timers, created, count, linked, idle⟩ := hour_linked
  obtain ⟨fuel, final, timeout, returned, cursors, -, left⟩ := pass_handles atOneSecond (creates_spares 0#32) linked idle
  rw [count] at left
  exact ⟨timers, fuel, final, timeout, created, count, returned, cursors, left⟩

end ZapeProof
