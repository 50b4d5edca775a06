import Mathlib.Order.MinMax
import Zape.Timers.Scanning

/-! The timeout that `ape_timers_process` returns, and the timers that are created while it runs. -/
namespace ZapeProof

open Machine ZapeModel

/-- From a sample of the clock to a schedule, rounded to milliseconds. -/
def due (schedule lastsample : BitVec 64) : Int := ((schedule.toNat : Int) - lastsample.toNat + 500000) / 1000000

/-- The sample that the timeout counts from. -/
def lastSample (clock : Nat → BitVec 64) (scan : Scan) (final : Timers) : BitVec 64 :=
  if scan.lastsample = 0#64 then clock (final.samples - 1) else scan.lastsample

/-- The least timeout, or the only one when the scan found nothing scheduled. -/
def leastTimeout (scan : Scan) (final : Timers) : Int :=
  if scan.inums = uint64Max then apeTimerResolution else if final.lowResolution then 100 else 1

/-- A schedule that the scan goes past. -/
def Passes (clock : Nat → BitVec 64) (behaviour : Nat → TimerCallback) (start : Scan) (schedule : BitVec 64) : Prop :=
  ∃ scan address timer, Visits (scanTurn clock behaviour) start scan ∧ scan.label = .pass ∧ scan.cur = some address ∧
    scan.timers.node address = some timer ∧ timer.schedule = schedule

/-- The timeout is not longer than the time to the schedule of any timer that is left and not cleared. -/
def OnTime (clock : Nat → BitVec 64) (scan : Scan) (final : Timers) (timeout : Int) : Prop :=
  ∀ address timer, final.node address = some timer → timer.flags &&& apeTimerIsCleared = 0#32 →
    timeout ≤ max (leastTimeout scan final) (due timer.schedule (lastSample clock scan final))

/-- A timer of the pass itself, that is left and not cleared, is not due before all that the scan goes past. -/
def Covered (clock : Nat → BitVec 64) (behaviour : Nat → TimerCallback) (first : Nat) (start scan : Scan) (final : Timers) :
    Prop :=
  ∀ address timer, first ≤ address → final.node address = some timer → timer.flags &&& apeTimerIsCleared = 0#32 →
    (∃ schedule, Passes clock behaviour start schedule ∧ schedule ≠ uint64Max) →
      ∃ schedule, Passes clock behaviour start schedule ∧
        due schedule (lastSample clock scan final) ≤
          max (leastTimeout scan final) (due timer.schedule (lastSample clock scan final))

/-- No timer that the scan goes past is overdue by 23 days. -/
def NotLate (clock : Nat → BitVec 64) (behaviour : Nat → TimerCallback) (start scan : Scan) (final : Timers) : Prop :=
  ∀ schedule, Passes clock behaviour start schedule →
    (lastSample clock scan final).toNat ≤ schedule.toNat + 2007021038051616

/-- And none is further away than an `int` of milliseconds. -/
def Near (clock : Nat → BitVec 64) (behaviour : Nat → TimerCallback) (start scan : Scan) (final : Timers) : Prop :=
  ∀ schedule, Passes clock behaviour start schedule →
    schedule.toNat < (lastSample clock scan final).toNat + 2147483647500000

section Arithmetic

variable (low : Bool) (inums lastsample : BitVec 64)

theorem floor_positive : (1 : Int) ≤ if low then 100 else 1 := by
  cases low <;> decide

/-- The conversion to `int` takes the low 32 bits. -/
theorem timeout_raw : ∃ gap raw : Nat, gap + lastsample.toNat = 18446744073709551616 ∧
    raw = ((gap + inums.toNat) % 18446744073709551616 + 500000) % 18446744073709551616 / 1000000 % 4294967296 ∧
    nextTimeout low inums lastsample =
      max (if low then 100 else 1) (if 2 * raw < 4294967296 then (raw : Int) else (raw : Int) - 4294967296) := by
  refine ⟨2 ^ 64 - lastsample.toNat, (((inums - lastsample + 500000#64) / 1000000#64).setWidth 32).toNat,
    Nat.sub_add_cancel lastsample.isLt.le, ?_, ?_⟩
  · rw [BitVec.toNat_setWidth, BitVec.toNat_udiv, BitVec.toNat_add, BitVec.toNat_sub]
    rfl
  · rw [nextTimeout, BitVec.toInt_eq_toNat_cond]
    rfl

theorem timeout_le (late : lastsample.toNat ≤ inums.toNat + 2007021038051616) :
    nextTimeout low inums lastsample ≤ max (if low then 100 else 1) (due inums lastsample) := by
  have positive := floor_positive low
  have first : inums.toNat < 18446744073709551616 := inums.isLt
  have second : lastsample.toNat < 18446744073709551616 := lastsample.isLt
  obtain ⟨gap, raw, whole, is, returned⟩ := timeout_raw low inums lastsample
  rw [returned, due]
  apply max_le (le_max_left _ _)
  by_cases past : inums.toNat + 500000 < lastsample.toNat
  · apply le_trans _ (le_max_left _ _)
    apply le_trans _ positive
    omega
  · apply le_trans _ (le_max_right _ _)
    have difference : ((gap + inums.toNat) % 18446744073709551616 + 500000) % 18446744073709551616 ≤
        inums.toNat + 500000 - lastsample.toNat := by
      by_cases before : inums.toNat < lastsample.toNat
      · have below : (gap + inums.toNat) % 18446744073709551616 = gap + inums.toNat := Nat.mod_eq_of_lt (by omega)
        rw [below, Nat.mod_eq_sub_mod (by omega)]
        exact (Nat.mod_le _ _).trans (by omega)
      · have beyond : (gap + inums.toNat) % 18446744073709551616 = inums.toNat - lastsample.toNat := by
          rw [Nat.mod_eq_sub_mod (by omega), Nat.mod_eq_of_lt (by omega)]
          omega
        rw [beyond]
        exact (Nat.mod_le _ _).trans (by omega)
    have left : raw ≤ (inums.toNat + 500000 - lastsample.toNat) / 1000000 := by
      rw [is]
      exact (Nat.mod_le _ _).trans (Nat.div_le_div_right difference)
    omega

theorem due_le (near : inums.toNat < lastsample.toNat + 2147483647500000) :
    due inums lastsample ≤ nextTimeout low inums lastsample := by
  have positive := floor_positive low
  have first : inums.toNat < 18446744073709551616 := inums.isLt
  have second : lastsample.toNat < 18446744073709551616 := lastsample.isLt
  obtain ⟨gap, raw, whole, is, returned⟩ := timeout_raw low inums lastsample
  rw [returned, due]
  by_cases past : inums.toNat + 500000 < lastsample.toNat
  · apply le_trans _ (le_max_left _ _)
    omega
  · apply le_trans _ (le_max_right _ _)
    omega

theorem due_mono {left right : BitVec 64} (before : left.toNat ≤ right.toNat) : due left lastsample ≤ due right lastsample := by
  unfold due
  omega

end Arithmetic

section Minimum

variable {clock : Nat → BitVec 64} {behaviour : Nat → TimerCallback} {scan next start : Scan}

theorem inums_turn (turn : scanTurn clock behaviour scan = .again next) :
    next.inums = scan.inums ∨ ∃ address timer, scan.label = .pass ∧ scan.cur = some address ∧
      scan.timers.node address = some timer ∧
      next.inums = if timer.schedule.ult scan.inums then timer.schedule else scan.inums := by
  unfold scanTurn at turn
  split at turn
  · cases turn
  · rename_i address cur
    split at turn
    · cases turn
    · rename_i timer node
      split at turn
      · -- the timer is looked at, and maybe run
        apply Or.inl
        split at turn
        · cases turn
          rfl
        · dsimp only at turn
          split at turn
          · unfold runTimer at turn
            split at turn
            · cases turn
            · dsimp only at turn
              split at turn
              · cases turn
                rfl
              · split at turn
                · cases turn
                · split at turn
                  · cases turn
                  · cases turn
                    rfl
          · cases turn
            rfl
      · apply Or.inl
        split at turn
        · cases turn
        · cases turn
          rfl
      · rename_i label
        cases turn
        exact .inr ⟨address, timer, label, cur, node, rfl⟩

theorem inums_falls (turn : scanTurn clock behaviour scan = .again next) : next.inums.toNat ≤ scan.inums.toNat := by
  rcases inums_turn turn with same | ⟨address, timer, -, -, -, changed⟩
  · rw [same]
  · rw [changed]
    split
    · rename_i smaller
      rw [BitVec.ult, decide_eq_true_eq] at smaller
      exact smaller.le
    · exact le_refl _

theorem scan_done {last : Scan} (turn : scanTurn clock behaviour scan = .done (.ok last)) :
    last = scan ∧ scan.cur = none := by
  unfold scanTurn at turn
  split at turn
  · rename_i cur
    cases turn
    exact ⟨rfl, cur⟩
  · split at turn
    · cases turn
    · split at turn
      · split at turn
        · cases turn
        · dsimp only at turn
          split at turn
          · unfold runTimer at turn
            split at turn
            · cases turn
            · dsimp only at turn
              split at turn
              · cases turn
              · split at turn
                · cases turn
                · split at turn
                  · cases turn
                  · cases turn
          · cases turn
      · split at turn
        · cases turn
        · cases turn
      · cases turn

theorem inums_passed (visits : Visits (scanTurn clock behaviour) start scan) (fresh : start.inums = uint64Max) :
    scan.inums = uint64Max ∨ Passes clock behaviour start scan.inums := by
  induction visits with
  | start => exact .inl fresh
  | @turn scan next visits turn ih =>
    rcases inums_turn turn with same | ⟨address, timer, label, cur, node, changed⟩
    · rw [same]
      exact ih
    · rw [changed]
      split
      · exact .inr ⟨scan, address, timer, visits, label, cur, node, rfl⟩
      · exact ih

theorem inums_least {fuel : Nat} {last : Scan}
    (returned : loop (scanTurn clock behaviour) fuel start = some (.ok last)) {schedule : BitVec 64}
    (passes : Passes clock behaviour start schedule) : last.inums.toNat ≤ schedule.toNat := by
  obtain ⟨scan, address, timer, visits, label, cur, node, rfl⟩ := passes
  let inums := if timer.schedule.ult scan.inums then timer.schedule else scan.inums
  have turn : scanTurn clock behaviour scan = .again { scan with cur := timer.next, inums, label := .visit } := by
    simp only [scanTurn, cur, node, label, inums]
  have less : inums.toNat ≤ timer.schedule.toNat := by
    simp only [inums]
    split
    · exact le_refl _
    · rename_i larger
      rw [BitVec.ult, decide_eq_true_eq] at larger
      exact Nat.le_of_not_lt larger
  obtain ⟨left, rest⟩ := loop_from_visits (visits.turn turn) returned
  refine @loop_result _ _ (scanTurn clock behaviour) _ (fun scan => scan.inums.toNat ≤ timer.schedule.toNat)
    (fun result => ∀ last, result = .ok last → last.inums.toNat ≤ timer.schedule.toNat) ?_ left _ less rest last rfl
  intro scan bound
  cases turn : scanTurn clock behaviour scan with
  | again next => exact .inl ⟨next, rfl, (inums_falls turn).trans bound⟩
  | done result =>
    refine .inr ⟨result, rfl, ?_⟩
    rintro last rfl
    rw [(scan_done turn).1]
    exact bound

end Minimum

section Process

variable {clock : Nat → BitVec 64} {behaviour : Nat → TimerCallback} {timers : Timers} {list : List Nat} {fuel : Nat}
  {scan : Scan} {final : Timers} {timeout : Int}

/-- A scan that returned did not come to a timer that was freed. -/
theorem spared_of_returned {after : Timers} {result : Scan} (done : timers.processAsync clock behaviour = .ok after)
    (looped : loop (scanTurn clock behaviour) fuel { timers := after, cur := timers.head } = some (.ok result)) :
    SparesHead clock behaviour timers ∧
      ∀ scan, Visits (scanTurn clock behaviour) { timers := after, cur := timers.head } scan →
        SparesNext clock behaviour scan := by
  have sound : ¬ ∃ fuel, scanTimers clock behaviour fuel timers = some (.error .wildPointer) := by
    rintro ⟨more, failed⟩
    rw [scan_runs done] at failed
    cases loop_unique looped failed
  constructor
  · by_contra unspared
    exact sound (head_freed unspared)
  · intro scan visits
    by_contra unspared
    exact sound (next_freed done visits unspared)

theorem scan_returned (linked : Linked timers list) (idle : timers.busy = [])
    (returned : scanTimers clock behaviour fuel timers = some (.ok scan)) :
    ∃ after, timers.processAsync clock behaviour = .ok after ∧
      loop (scanTurn clock behaviour) fuel { timers := after, cur := timers.head } = some (.ok scan) ∧
      Visits (scanTurn clock behaviour) { timers := after, cur := timers.head } scan ∧
      ∃ behind, Scanned timers.count scan behind [] := by
  obtain ⟨after, list', done, follows⟩ := @processAsync_follows clock behaviour timers list linked
  have looped := returned
  rw [scan_runs done] at looped
  obtain ⟨head, next⟩ := spared_of_returned done looped
  have ends : Visits (scanTurn clock behaviour) { timers := after, cur := timers.head } scan ∧ scan.cur = none := by
    refine @loop_result _ _ (scanTurn clock behaviour) _
      (fun scan => Visits (scanTurn clock behaviour) { timers := after, cur := timers.head } scan)
      (fun result => ∀ last, result = .ok last →
        Visits (scanTurn clock behaviour) { timers := after, cur := timers.head } last ∧ last.cur = none)
      ?_ fuel _ .start looped scan rfl
    intro scan visits
    cases turn : scanTurn clock behaviour scan with
    | again next => exact .inl ⟨next, rfl, visits.turn turn⟩
    | done result =>
      refine .inr ⟨result, rfl, ?_⟩
      rintro last rfl
      obtain ⟨rfl, cur⟩ := scan_done turn
      exact ⟨visits, cur⟩
  obtain ⟨behind, ahead, scanned⟩ := scanned_visits linked idle done head next ends.1
  refine ⟨after, done, looped, ends.1, behind, ?_⟩
  cases ahead with
  | nil => exact scanned
  | cons address ahead => cases ends.2.symm.trans scanned.cur

theorem finish_returned (finished : finishScan clock behaviour scan = .ok (final, timeout)) :
    ∃ after, scan.timers.processAsync clock behaviour = .ok after ∧ final.node = after.node ∧ final.count = after.count ∧
      timeout = if scan.inums = uint64Max then apeTimerResolution
        else nextTimeout final.lowResolution scan.inums (lastSample clock scan final) := by
  rw [finishScan] at finished
  cases done : scan.timers.processAsync clock behaviour with
  | error fault =>
    rw [done] at finished
    cases finished
  | ok after =>
    rw [done] at finished
    refine ⟨after, rfl, ?_⟩
    have result := Except.ok.inj finished
    dsimp only at result
    by_cases nothing : scan.inums = uint64Max
    · rw [if_pos nothing] at result
      cases result
      exact ⟨rfl, rfl, (if_pos nothing).symm⟩
    · rw [if_neg nothing] at result
      by_cases unsampled : scan.lastsample = 0#64
      · rw [if_pos unsampled] at result
        cases result
        refine ⟨rfl, rfl, ?_⟩
        rw [if_neg nothing, lastSample, if_pos unsampled]
        rfl
      · rw [if_neg unsampled] at result
        cases result
        refine ⟨rfl, rfl, ?_⟩
        rw [if_neg nothing, lastSample, if_neg unsampled]

theorem old_scheduled (linked : Linked timers list) (idle : timers.busy = [])
    (returned : scanTimers clock behaviour fuel timers = some (.ok scan))
    (finished : finishScan clock behaviour scan = .ok (final, timeout)) {address : Nat} {timer : Timer}
    (old : address < timers.count) (node : final.node address = some timer) :
    scan.inums.toNat ≤ timer.schedule.toNat := by
  obtain ⟨-, -, -, -, behind, scanned⟩ := scan_returned linked idle returned
  obtain ⟨after, done, same, -, -⟩ := finish_returned finished
  obtain ⟨new, list', done', follows⟩ := @processAsync_follows clock behaviour _ _ scanned.linked
  cases done.symm.trans done'
  obtain ⟨behind', order, passed⟩ := passed_follows follows scanned.count scanned.passed
  rw [same] at node
  rcases follows.linked.others address (alive_some node) with inside | running
  · rw [order, List.filter_nil, List.append_nil] at inside
    exact passed address inside old timer node
  · rw [follows.busy, scanned.busy] at running
    cases running

end Process

def atOneSecond : Nat → BitVec 64 := fun _ => 1000000000#64

def hourAndAsync : Except Fault Timers := noTimers.performAll atOneSecond [.create 3600000#32 false, .async false]

def creates (ms : BitVec 32) : Nat → TimerCallback := fun _ => { calls := [.create ms false] }

def seenOf (timer : Timer) : BitVec 32 × BitVec 64 × Option Nat := (timer.flags, timer.schedule, timer.next)

/-- The pass over the timer of an hour, with an async that creates another timer. -/
theorem hour_runs (ms : BitVec 32) : ∃ timers list after scan final, hourAndAsync = .ok timers ∧ Linked timers list ∧
    timers.busy = [] ∧ timers.processAsync atOneSecond (creates ms) = .ok after ∧
    scanTimers atOneSecond (creates ms) 3 timers = some (.ok scan) ∧
    finishScan atOneSecond (creates ms) scan = .ok (final, 3600000) ∧
    timers.count = 1 ∧ timers.head = some 0 ∧ (∀ address timer, final.node address = some timer → address < 2) ∧
    (after.node 0).map seenOf = some (apeTimerIsProtected, 3601000000000#64, none) ∧
    (final.node 1).map seenOf = some (apeTimerIsProtected, 1000000000#64 + ms.signExtend 64 * 1000000#64, some 0) ∧
    leastTimeout scan final = 1 ∧ lastSample atOneSecond scan final = 1000000000#64 := by
  obtain ⟨timers, list, performed, follows⟩ :=
    @performAll_follows atOneSecond _ _ linked_none [.create 3600000#32 false, .async false]
  have created : hourAndAsync = .ok timers := performed
  let observe := fun timers : Timers => (scanTimers atOneSecond (creates ms) 3 timers).map fun result =>
    result.map fun scan => (scan.inums, scan.lastsample, (finishScan atOneSecond (creates ms) scan).map fun final =>
      (final.1.count, (final.1.node 1).map seenOf, final.1.lowResolution))
  have seen : (hourAndAsync.map fun timers => (timers.count, timers.head, observe timers,
      (timers.processAsync atOneSecond (creates ms)).map fun after => (after.node 0).map seenOf)) =
      .ok (1, some 0, some (.ok (3601000000000#64, 0#64, .ok (2,
        some (apeTimerIsProtected, 1000000000#64 + ms.signExtend 64 * 1000000#64, some 0), false))),
        .ok (some (apeTimerIsProtected, 3601000000000#64, none))) := by rfl
  rw [created] at seen
  obtain ⟨count, rest⟩ := Prod.mk.inj (Except.ok.inj seen)
  obtain ⟨head, rest⟩ := Prod.mk.inj rest
  obtain ⟨scanning, starting⟩ := Prod.mk.inj rest
  obtain ⟨result, returned, ended⟩ := Option.map_eq_some_iff.mp scanning
  obtain ⟨after, done, opening⟩ := returned_map starting
  obtain ⟨scan, rfl, observed⟩ := returned_map ended
  obtain ⟨inums, ended⟩ := Prod.mk.inj observed
  obtain ⟨lastsample, ended⟩ := Prod.mk.inj ended
  obtain ⟨⟨final, timeout⟩, finished, ended⟩ := returned_map ended
  obtain ⟨allocated, ended⟩ := Prod.mk.inj ended
  obtain ⟨created', low⟩ := Prod.mk.inj ended
  have scheduled : scan.inums ≠ uint64Max := by
    rw [inums]
    decide
  have least : leastTimeout scan final = 1 := by
    rw [leastTimeout, if_neg scheduled, low]
    rfl
  have sampled : lastSample atOneSecond scan final = 1000000000#64 := by
    rw [lastSample, if_pos lastsample, atOneSecond]
  obtain ⟨-, -, -, -, is⟩ := finish_returned finished
  have hour : nextTimeout false 3601000000000#64 1000000000#64 = 3600000 := by rfl
  rw [if_neg scheduled, sampled, inums, low, hour] at is
  subst is
  have inside : ∀ address timer, final.node address = some timer → address < 2 := by
    intro address timer node
    obtain ⟨-, -, -, -, behind, scanned⟩ := scan_returned follows.linked follows.busy returned
    obtain ⟨left, list', done', left'⟩ := @processAsync_follows atOneSecond (creates ms) _ _ scanned.linked
    obtain ⟨new, done'', same, counts, -⟩ := finish_returned finished
    cases done'.symm.trans done''
    rw [← allocated, counts]
    rw [same] at node
    exact left'.linked.below address (alive_some node)
  exact ⟨timers, list, after, scan, final, created, follows.linked, follows.busy, done, returned, finished, count, head,
    inside, opening, created', least, sampled⟩

theorem passes_single {clock : Nat → BitVec 64} {behaviour : Nat → TimerCallback} {after : Timers} {address : Nat}
    {timer : Timer} (node : after.node address = some timer) (last : timer.next = none)
    (uncleared : timer.flags &&& apeTimerIsCleared = 0#32)
    (early : ∀ samples, (timer.schedule - 150000#64).ule (clock samples) = false) {schedule : BitVec 64}
    (passes : Passes clock behaviour { timers := after, cur := some address } schedule) : schedule = timer.schedule := by
  obtain ⟨scan, other, found, visits, label, cur, here, rfl⟩ := passes
  have stays : scan.cur = none ∨
      (scan.cur = some address ∧ scan.timers.node address = some timer ∧ scan.label ≠ .destroy) := by
    apply visits_invariant (fun scan : Scan => scan.cur = none ∨
      (scan.cur = some address ∧ scan.timers.node address = some timer ∧ scan.label ≠ .destroy)) ?_
      (.inr ⟨rfl, node, ScanLabel.noConfusion⟩) visits
    rintro scan next (ended | ⟨cur, node, proper⟩) turn
    · simp only [scanTurn, ended] at turn
      cases turn
    · cases label : scan.label with
      | visit =>
        simp only [scanTurn, cur, node, label, uncleared, ne_eq, not_true_eq_false, ite_false, Timers.sample, early,
          Bool.false_eq_true] at turn
        cases turn
        refine .inr ⟨rfl, node, ?_⟩
        intro wrong
        cases wrong
      | destroy => exact absurd label proper
      | pass =>
        simp only [scanTurn, cur, node, label, last] at turn
        cases turn
        exact .inl rfl
  rcases stays with ended | ⟨same, node, -⟩
  · cases ended.symm.trans cur
  · cases same.symm.trans cur
    cases node.symm.trans here
    rfl

end ZapeProof
