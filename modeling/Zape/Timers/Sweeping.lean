import Zape.Timers.Growing
import Zape.Timers.Timeout

/-! `APE_timers_destroy_unprotected` and `APE_timers_destroy_all`: clear functions run while the list is taken apart. -/
namespace ZapeModel

open Machine

/-- The loop of either function, with its local variable. -/
structure Sweep where
  timers : Timers
  cur : Option Nat

section Sweep

variable (clock : Nat → BitVec 64) (behaviour : Nat → TimerCallback) (all : Bool)

/-- With `all`, the loop does not ask for the flags. -/
def sweepTurn (sweep : Sweep) : Turn Sweep (Except Fault Timers) :=
  match sweep.cur with
  | none => .done (.ok sweep.timers)
  | some address =>
    match sweep.timers.node address with
    | none => .done (.error .wildPointer)
    | some timer =>
      if all ∨ timer.flags &&& apeTimerIsProtected = 0#32 then
        match sweep.timers.apeTimerDestroy clock behaviour address with
        | .error fault => .done (.error fault)
        | .ok (timers, next) => .again { timers, cur := next }
      else .again { sweep with cur := timer.next }

namespace Timers

def sweep (fuel : Nat) (timers : Timers) : Option (Except Fault Timers) :=
  loop (sweepTurn clock behaviour all) fuel { timers, cur := timers.head }

/-- The loop of `del_async_all`, which calls every clear function whether or not there is one. -/
def deleteAsyncs (timers : Timers) : List Bool → Except Fault Timers
  | [] => .ok timers
  | clearfunc :: asyncs =>
    if clearfunc then (timers.call clock behaviour).bind fun (timers, _) => timers.deleteAsyncs asyncs
    else .error .nullDereference

def delAsyncAll (timers : Timers) : Except Fault Timers :=
  deleteAsyncs clock behaviour { timers with asyncs := [] } timers.asyncs

def destroyTimers (fuel : Nat) (timers : Timers) : Option (Except Fault Timers) :=
  (timers.sweep clock behaviour all fuel).map (·.bind (·.delAsyncAll clock behaviour))

def apeTimersDestroyUnprotected (fuel : Nat) (timers : Timers) : Option (Except Fault Timers) :=
  timers.destroyTimers clock behaviour false fuel

def apeTimersDestroyAll (fuel : Nat) (timers : Timers) : Option (Except Fault Timers) :=
  timers.destroyTimers clock behaviour true fuel

end Timers

end Sweep

end ZapeModel

namespace ZapeProof

open Machine ZapeModel

def isProtected (timer : Timer) : Bool := timer.flags &&& apeTimerIsProtected ≠ 0#32

def guards (timers : Timers) (address : Nat) : Option Bool := (timers.node address).map isProtected

/-- The timers that were there are not protected in another way, as far as they are still there. -/
structure KeepsGuards (old new : Timers) : Prop where
  count : old.count ≤ new.count
  kept : ∀ address < old.count, ∀ guard, guards new address = some guard → guards old address = some guard

section Guards

variable {clock : Nat → BitVec 64} {behaviour : Nat → TimerCallback} {timers middle new : Timers} {address other : Nat}
  {timer : Timer}

theorem keepsGuards_same (count : new.count = timers.count) (same : guards new = guards timers) :
    KeepsGuards timers new where
  count := count.ge
  kept := by
    intro address _ guard
    rw [same]
    exact id

theorem KeepsGuards.trans (first : KeepsGuards timers middle) (second : KeepsGuards middle new) : KeepsGuards timers new where
  count := first.count.trans second.count
  kept := by
    intro address old guard known
    exact first.kept address old guard (second.kept address (old.trans_le first.count) guard known)

theorem guards_update (value : Option Timer) (differ : other ≠ address) :
    guards { timers with node := Function.update timers.node address value } other = guards timers other := by
  rw [guards, guards]
  exact congrArg _ (Function.update_of_ne differ _ _)

theorem write_guards {change : Timer → Timer} (written : timers.write address change = .ok new)
    (same : ∀ timer, isProtected (change timer) = isProtected timer) :
    guards new = guards timers ∧ new.count = timers.count := by
  cases node : timers.node address with
  | none =>
    rw [Timers.write, node] at written
    cases written
  | some timer =>
    rw [write_ok node] at written
    cases written
    refine ⟨?_, rfl⟩
    funext other
    by_cases own : other = address
    · subst own
      simp [guards, node, same]
    · exact guards_update _ own

theorem unlink_guards (unlinked : timers.unlink timer = .ok new) :
    guards new = guards timers ∧ new.count = timers.count := by
  obtain ⟨middle, front, back⟩ := returned_bind unlinked
  have first : guards middle = guards timers ∧ middle.count = timers.count := by
    split at front
    · cases front
      exact ⟨rfl, rfl⟩
    · exact write_guards front fun _ => rfl
  split at back
  · cases back
    exact first
  · have second := write_guards back fun _ => rfl
    exact ⟨second.1.trans first.1, second.2.trans first.2⟩

theorem create_guards {ms : BitVec 32} {clearfunc : Bool} (created : timers.apeTimerCreate clock ms clearfunc = .ok new) :
    KeepsGuards timers new := by
  obtain ⟨middle, linked, rfl⟩ := returned_map created
  have kept : guards middle = guards timers ∧ middle.count = timers.count := by
    split at linked
    · cases linked
      exact ⟨rfl, rfl⟩
    · have written := write_guards linked fun _ => rfl
      exact ⟨written.1, written.2⟩
  refine ⟨by rw [kept.2]; exact Nat.le_succ _, ?_⟩
  intro address old guard known
  rw [← kept.1]
  exact (guards_update _ old.ne).symm.trans known

theorem cleared_protected (timer : Timer) :
    isProtected { timer with flags := timer.flags ||| apeTimerIsCleared } = isProtected timer := by
  have apart : (timer.flags ||| apeTimerIsCleared) &&& apeTimerIsProtected = timer.flags &&& apeTimerIsProtected := by
    rw [BitVec.and_or_distrib_right, show apeTimerIsCleared &&& apeTimerIsProtected = 0#32 by decide, BitVec.or_zero]
  simp only [isProtected, apart]

theorem clearbyid_guards (identifier : BitVec 64) (force : Bool) (slots : Nat) {start : Option Nat}
    (cleared : timers.apeTimerClearbyid identifier force slots start = .ok new) :
    guards new = guards timers ∧ new.count = timers.count := by
  induction slots generalizing start with
  | zero =>
    rw [Timers.apeTimerClearbyid] at cleared
    cases cleared
    exact ⟨rfl, rfl⟩
  | succ slots ih =>
    cases start with
    | none =>
      simp only [Timers.apeTimerClearbyid] at cleared
      cases cleared
      exact ⟨rfl, rfl⟩
    | some address =>
      simp only [Timers.apeTimerClearbyid] at cleared
      split at cleared
      · cases cleared
      · split at cleared
        · split at cleared
          · exact write_guards cleared cleared_protected
          · cases cleared
            exact ⟨rfl, rfl⟩
        · exact ih cleared

theorem release_guards (timers : Timers) (address : Nat) : KeepsGuards timers (timers.release address) where
  count := Nat.le_refl _
  kept := by
    intro other _ guard known
    by_cases own : other = address
    · subst own
      simp [guards, Timers.release] at known
    · rw [← known]
      exact (guards_update none own).symm

theorem entered_guards {ended : Timers} (kept : KeepsGuards (timers.enter address) ended) :
    KeepsGuards timers (ended.leave.release address) := by
  have entered := @keepsGuards_same timers (timers.enter address) rfl rfl
  have left := @keepsGuards_same ended ended.leave rfl rfl
  exact (entered.trans kept).trans (left.trans (release_guards ended.leave address))

mutual

theorem perform_guards {timers new : Timers} (call : TimerCall) (performed : timers.perform clock call = .ok new) :
    KeepsGuards timers new := by
  match call with
  | .create ms clearfunc =>
    rw [Timers.perform] at performed
    exact create_guards performed
  | .async clearfunc =>
    rw [Timers.perform] at performed
    cases performed
    exact keepsGuards_same rfl rfl
  | .clearById identifier force =>
    rw [Timers.perform] at performed
    have cleared := clearbyid_guards identifier force timers.count performed
    exact keepsGuards_same cleared.2 cleared.1
  | .destroy address clearing =>
    rw [Timers.perform] at performed
    split at performed
    · cases performed
      exact keepsGuards_same rfl rfl
    · split at performed
      · cases performed
        exact keepsGuards_same rfl rfl
      · obtain ⟨middle, unlinked, rest⟩ := returned_bind performed
        have detached := unlink_guards unlinked
        obtain ⟨after, cleared, rfl⟩ := returned_map rest
        apply (keepsGuards_same detached.2 detached.1).trans
        split at cleared
        · obtain ⟨ended, clears, rfl⟩ := returned_map cleared
          exact entered_guards (performAll_guards clearing clears)
        · cases cleared
          exact release_guards middle address

theorem performAll_guards {timers new : Timers} (calls : List TimerCall)
    (performed : timers.performAll clock calls = .ok new) : KeepsGuards timers new := by
  match calls with
  | [] =>
    rw [Timers.performAll] at performed
    cases performed
    exact keepsGuards_same rfl rfl
  | call :: calls =>
    rw [Timers.performAll] at performed
    obtain ⟨middle, first, rest⟩ := returned_bind performed
    exact (perform_guards call first).trans (performAll_guards calls rest)

end

theorem call_guards {ret : BitVec 32} (called : timers.call clock behaviour = .ok (new, ret)) : KeepsGuards timers new := by
  obtain ⟨middle, performed, same⟩ := returned_map called
  cases same
  have counted := @keepsGuards_same timers { timers with calls := timers.calls + 1 } rfl rfl
  exact counted.trans (performAll_guards _ performed)

theorem destroy_guards {next : Option Nat} (destroyed : timers.apeTimerDestroy clock behaviour address = .ok (new, next)) :
    KeepsGuards timers new := by
  unfold Timers.apeTimerDestroy at destroyed
  split at destroyed
  · cases destroyed
  · obtain ⟨middle, unlinked, rest⟩ := returned_bind destroyed
    have detached := unlink_guards unlinked
    obtain ⟨after, cleared, same⟩ := returned_map rest
    cases same
    apply (keepsGuards_same detached.2 detached.1).trans
    split at cleared
    · obtain ⟨⟨ended, ret⟩, called, rfl⟩ := returned_map cleared
      exact entered_guards (call_guards called)
    · cases cleared
      exact release_guards middle address

end Guards

/-- Where a timer is destroyed, its clear function does not destroy the one that the loop goes on with. -/
def SparesFollowing (clock : Nat → BitVec 64) (behaviour : Nat → TimerCallback) (all : Bool) (sweep : Sweep) : Prop :=
  ∀ address timer timers next, sweep.cur = some address → sweep.timers.node address = some timer →
    (all ∨ timer.flags &&& apeTimerIsProtected = 0#32) →
      sweep.timers.apeTimerDestroy clock behaviour address = .ok (timers, some next) → alive timers next = true

/-- In the middle of the list: the timers behind the cursor are new, or they are protected and these are spared. -/
structure Swept (all : Bool) (first : Timers) (list : List Nat) (sweep : Sweep) (behind ahead : List Nat) : Prop where
  follows : Follows first list sweep.timers (behind ++ ahead)
  keeps : KeepsGuards first sweep.timers
  cur : sweep.cur = ahead.head?
  old : ∀ address ∈ ahead, address < first.count
  passed : ∀ address ∈ behind, address < first.count → all = false ∧ guards first address = some true

section Loop

variable {clock : Nat → BitVec 64} {behaviour : Nat → TimerCallback} {all : Bool} {first : Timers} {list : List Nat}
  {sweep : Sweep} {behind ahead : List Nat}

theorem swept_start (linked : Linked first list) : Swept all first list { timers := first, cur := first.head } [] list where
  follows := follows_refl linked
  keeps := keepsGuards_same rfl rfl
  cur := double_head linked.double
  old := fun address member => linked.below address (linked.here address member)
  passed := nofun

theorem swept_forward {address : Nat} (swept : Swept all first list sweep behind (address :: ahead)) {timer : Timer}
    (node : sweep.timers.node address = some timer) : timer.next = ahead.head? := by
  have points := double_next swept.follows.linked.double
  rw [followers, node] at points
  exact points

theorem swept_destroy (linked : Linked first list) (idle : first.busy = []) {address : Nat}
    (swept : Swept all first list sweep behind (address :: ahead)) {timer : Timer}
    (node : sweep.timers.node address = some timer) (doomed : all ∨ timer.flags &&& apeTimerIsProtected = 0#32) :
    ∃ next, sweepTurn clock behaviour all sweep = .again next ∧
      (SparesFollowing clock behaviour all sweep →
        ∃ behind' ahead', Swept all first list next behind' ahead' ∧ ahead'.length < (address :: ahead).length) := by
  have cur : sweep.cur = some address := swept.cur
  have forward := swept_forward swept node
  obtain ⟨new, list', destroyed, follows, dead⟩ := @destroy_follows clock behaviour _ _ swept.follows.linked address
    (by simp) (swept.follows.busy.trans idle) timer node
  obtain ⟨fresh, order, newer⟩ := follows.order
  rw [List.filter_append, List.filter_cons_of_neg (by simp [dead]), ← List.append_assoc] at order
  refine ⟨{ timers := new, cur := timer.next }, ?_, fun spares => ?_⟩
  · simp only [sweepTurn, cur, node, if_pos doomed, destroyed]
  refine ⟨fresh ++ behind.filter (alive new), ahead.filter (alive new), ?_, ?_⟩
  · refine { follows := order ▸ swept.follows.trans follows linked,
             keeps := swept.keeps.trans (destroy_guards destroyed), cur := ?_, old := ?_, passed := ?_ }
    · cases ahead with
      | nil => exact forward
      | cons second ahead =>
        have next : timer.next = some second := forward
        rw [next] at destroyed
        rw [List.filter_cons_of_pos (spares address timer new second cur node doomed destroyed)]
        exact next
    · exact fun other inside => swept.old other (List.mem_cons_of_mem _ (List.mem_filter.mp inside).1)
    · intro other member old
      rcases List.mem_append.mp member with young | before
      · exact absurd (swept.follows.count.trans (newer other young)) (Nat.not_le.mpr old)
      · exact swept.passed other (List.mem_filter.mp before).1 old
  · exact Nat.lt_succ_of_le (List.length_filter_le _ _)

theorem swept_pass {address : Nat} (swept : Swept all first list sweep behind (address :: ahead)) {timer : Timer}
    (node : sweep.timers.node address = some timer) (spared : ¬ (all ∨ timer.flags &&& apeTimerIsProtected = 0#32)) :
    ∃ next, sweepTurn clock behaviour all sweep = .again next ∧ Swept all first list next (behind ++ [address]) ahead := by
  have cur : sweep.cur = some address := swept.cur
  obtain ⟨some_left, guarded⟩ := not_or.mp spared
  refine ⟨{ sweep with cur := timer.next }, by simp only [sweepTurn, cur, node, if_neg spared], ?_⟩
  refine { follows := ?_, keeps := swept.keeps, cur := swept_forward swept node, old := ?_, passed := ?_ }
  · rw [List.append_assoc]
    exact swept.follows
  · exact fun other inside => swept.old other (List.mem_cons_of_mem _ inside)
  · intro other member old
    rcases List.mem_append.mp member with before | here
    · exact swept.passed other before old
    · obtain rfl := List.mem_singleton.mp here
      refine ⟨Bool.eq_false_iff.mpr some_left, swept.keeps.kept other old true ?_⟩
      rw [guards, node, Option.map_some, isProtected, decide_eq_true guarded]

/-- A turn ends the loop, or leaves it in the list as long as the timer that follows is spared. -/
theorem swept_turn (linked : Linked first list) (idle : first.busy = []) (swept : Swept all first list sweep behind ahead) :
    (ahead = [] ∧ sweepTurn clock behaviour all sweep = .done (.ok sweep.timers)) ∨
      ∃ next, sweepTurn clock behaviour all sweep = .again next ∧
        (SparesFollowing clock behaviour all sweep →
          ∃ behind' ahead', Swept all first list next behind' ahead' ∧ ahead'.length < ahead.length) := by
  cases ahead with
  | nil =>
    have cur : sweep.cur = none := swept.cur
    exact .inl ⟨rfl, by simp only [sweepTurn, cur]⟩
  | cons address ahead =>
    obtain ⟨timer, node⟩ := some_of_alive (swept.follows.linked.here address (by simp))
    by_cases doomed : all = true ∨ timer.flags &&& apeTimerIsProtected = 0#32
    · exact .inr (swept_destroy linked idle swept node doomed)
    · obtain ⟨next, turn, kept⟩ := @swept_pass clock behaviour _ _ _ _ _ _ address swept timer node doomed
      exact .inr ⟨next, turn, fun _ => ⟨_, _, kept, Nat.lt_succ_self _⟩⟩

/-- In no state that the loop comes to, the timer that it goes on with is destroyed by a clear function. -/
def SparesAll (clock : Nat → BitVec 64) (behaviour : Nat → TimerCallback) (all : Bool) (timers : Timers) : Prop :=
  ∀ sweep, Visits (sweepTurn clock behaviour all) { timers, cur := timers.head } sweep →
    SparesFollowing clock behaviour all sweep

/-- What the loop leaves: new timers in front, and of the old ones protected ones only. -/
def SweptClean (all : Bool) (first : Timers) (list : List Nat) (result : Except Fault Timers) : Prop :=
  ∃ last fresh, result = .ok last ∧ Linked last (fresh ++ list.filter (alive last)) ∧ last.busy = first.busy ∧
    (∀ address ∈ fresh, first.count ≤ address) ∧
    ∀ address ∈ list, alive last address = true → all = false ∧ guards first address = some true

theorem swept_clean (linked : Linked first list) (swept : Swept all first list sweep behind []) :
    SweptClean all first list (.ok sweep.timers) := by
  obtain ⟨follows, -, -, -, passed⟩ := swept
  rw [List.append_nil] at follows
  obtain ⟨fresh, order, newer⟩ := follows.order
  refine ⟨sweep.timers, fresh, rfl, order ▸ follows.linked, follows.busy, newer, ?_⟩
  intro address member still
  apply passed address ?_ (linked.below address (linked.here address member))
  rw [order]
  exact List.mem_append_right _ (List.mem_filter.mpr ⟨member, still⟩)

theorem sweep_ends (linked : Linked first list) (idle : first.busy = [])
    (spares : SparesAll clock behaviour all first) {fuel : Nat} (enough : list.length < fuel) :
    ∃ result, first.sweep clock behaviour all fuel = some result ∧ SweptClean all first list result := by
  let start : Sweep := { timers := first, cur := first.head }
  have initial : ∃ behind ahead, Swept all first list start behind ahead ∧ ahead.length = list.length ∧
      Visits (sweepTurn clock behaviour all) start start := ⟨[], list, swept_start linked, rfl, .start⟩
  refine @loop_within _ _ (sweepTurn clock behaviour all) start (fun bound sweep => ∃ behind ahead,
    Swept all first list sweep behind ahead ∧ ahead.length = bound ∧ Visits (sweepTurn clock behaviour all) start sweep)
    (SweptClean all first list) ?_ _ _ initial enough
  rintro bound sweep ⟨behind, ahead, swept, rfl, visits⟩
  rcases @swept_turn clock behaviour _ _ _ _ _ _ linked idle swept with ⟨rfl, stops⟩ | ⟨next, turn, kept⟩
  · exact .inr ⟨_, stops, swept_clean linked swept⟩
  · obtain ⟨behind', ahead', swept', shorter⟩ := kept (spares sweep visits)
    exact .inl ⟨next, ahead'.length, turn, shorter, behind', ahead', swept', rfl, visits.turn turn⟩

theorem following_freed (visits : Visits (sweepTurn clock behaviour all) { timers := first, cur := first.head } sweep)
    (unspared : ¬ SparesFollowing clock behaviour all sweep) :
    ∃ fuel, first.sweep clock behaviour all fuel = some (.error .wildPointer) := by
  simp only [SparesFollowing, not_forall] at unspared
  obtain ⟨address, timer, left, next, cur, node, doomed, destroyed, dead⟩ := unspared
  have freed : left.node next = none := Option.not_isSome_iff_eq_none.mp dead
  have turn : sweepTurn clock behaviour all sweep = .again { timers := left, cur := some next } := by
    simp only [sweepTurn, cur, node, if_pos doomed, destroyed]
  have stops : sweepTurn clock behaviour all { timers := left, cur := some next } = .done (.error .wildPointer) := by
    simp only [sweepTurn, freed]
  exact loop_of_visits (visits.turn turn) (loop_done stops 0)

theorem destroy_spares (none : ∀ call, DestroysNone (behaviour call).calls) {timers new : Timers} (linked : Linked timers list)
    {address : Nat} (member : address ∈ list) (idle : timers.busy = []) {next : Option Nat}
    (destroyed : timers.apeTimerDestroy clock behaviour address = .ok (new, next)) {other : Nat} (differ : other ≠ address)
    (there : alive timers other = true) : alive new other = true := by
  obtain ⟨timer, node⟩ := some_of_alive (linked.here address member)
  obtain ⟨new', destroyed', -, -, -, -, others⟩ :=
    @destroy_grown clock _ _ behaviour none linked address member idle timer node
  cases destroyed.symm.trans destroyed'
  rw [alive_plans, others other (linked.below other there) differ, ← alive_plans]
  exact there

/-- Without a clear function that destroys timers the loop destroys none but those it is to destroy. -/
structure Visited (all : Bool) (first : Timers) (list : List Nat) (sweep : Sweep) (behind ahead : List Nat) : Prop where
  swept : Swept all first list sweep behind ahead
  here : ∀ address ∈ list, all = false → guards first address = some true → alive sweep.timers address = true

theorem visited_spares (idle : first.busy = []) (none : ∀ call, DestroysNone (behaviour call).calls)
    (swept : Swept all first list sweep behind ahead) : SparesFollowing clock behaviour all sweep := by
  intro address timer timers next cur node _ destroyed
  obtain ⟨ahead, rfl⟩ : ∃ more, ahead = address :: more := by
    have head := swept.cur.symm.trans cur
    cases ahead with
    | nil => cases head
    | cons first more => exact ⟨more, congrArg (· :: more) (Option.some.inj head)⟩
  have linked := swept.follows.linked
  have idle := swept.follows.busy.trans idle
  obtain ⟨new, list', destroyed', -⟩ := @destroy_follows clock behaviour _ _ linked address (by simp) idle timer node
  obtain ⟨-, same⟩ := Prod.mk.inj (Except.ok.inj (destroyed.symm.trans destroyed'))
  have head : ahead.head? = some next := ((swept_forward swept node).symm.trans same.symm)
  have inside : next ∈ ahead := List.mem_of_mem_head? head
  have differ : next ≠ address := by
    rintro rfl
    exact (List.nodup_cons.mp (List.nodup_append.mp linked.nodup).2.1).1 inside
  exact destroy_spares none linked (by simp) idle destroyed differ (linked.here next (by simp [inside]))

theorem visited_turn (linked : Linked first list) (idle : first.busy = [])
    (none : ∀ call, DestroysNone (behaviour call).calls) (visited : Visited all first list sweep behind ahead) {next : Sweep}
    (turn : sweepTurn clock behaviour all sweep = .again next) : ∃ behind' ahead', Visited all first list next behind' ahead' := by
  have swept := visited.swept
  rcases @swept_turn clock behaviour _ _ _ _ _ _ linked idle swept with ⟨-, stops⟩ | ⟨next', turn', kept⟩
  · cases stops.symm.trans turn
  cases turn'.symm.trans turn
  obtain ⟨behind', ahead', swept', -⟩ := kept (visited_spares idle none swept)
  refine ⟨behind', ahead', swept', ?_⟩
  intro other member some_left guarded
  have there := visited.here other member some_left guarded
  unfold sweepTurn at turn
  split at turn
  · cases turn
  · rename_i address cur
    split at turn
    · cases turn
    · rename_i timer node
      split at turn
      · rename_i doomed
        split at turn
        · cases turn
        · rename_i timers following destroyed
          cases turn
          have inside : address ∈ behind ++ ahead := by
            apply List.mem_append_right
            exact List.mem_of_mem_head? (swept.cur.symm.trans cur)
          apply destroy_spares none swept.follows.linked inside (swept.follows.busy.trans idle) destroyed ?_ there
          -- what is destroyed here is not protected
          rintro rfl
          have unguarded : guards sweep.timers other = some false := by
            rw [guards, node, Option.map_some, isProtected, decide_eq_false]
            simpa [some_left] using doomed
          have before := swept.keeps.kept other (linked.below other (linked.here other member)) false unguarded
          cases before.symm.trans guarded
      · cases turn
        exact there

theorem visited_visits (linked : Linked first list) (idle : first.busy = [])
    (none : ∀ call, DestroysNone (behaviour call).calls)
    (visits : Visits (sweepTurn clock behaviour all) { timers := first, cur := first.head } sweep) :
    ∃ behind ahead, Visited all first list sweep behind ahead := by
  induction visits with
  | start => exact ⟨[], list, swept_start linked, fun address member _ _ => linked.here address member⟩
  | turn _ again ih =>
    obtain ⟨behind, ahead, visited⟩ := ih
    exact visited_turn linked idle none visited again

theorem spares_none (linked : Linked first list) (idle : first.busy = [])
    (none : ∀ call, DestroysNone (behaviour call).calls) : SparesAll clock behaviour all first := by
  intro sweep visits
  obtain ⟨behind, ahead, visited⟩ := visited_visits linked idle none visits
  exact visited_spares idle none visited.swept

theorem sweep_exact (linked : Linked first list) (idle : first.busy = [])
    (none : ∀ call, DestroysNone (behaviour call).calls) {fuel : Nat} {last : Timers}
    (returned : first.sweep clock behaviour all fuel = some (.ok last)) :
    ∀ address ∈ list, (alive last address = true ↔ all = false ∧ guards first address = some true) := by
  let start : Sweep := { timers := first, cur := first.head }
  intro address member
  constructor
  · obtain ⟨result, returned', last', fresh, rfl, -, -, -, left⟩ :=
      sweep_ends linked idle (spares_none linked idle none) (Nat.lt_succ_self list.length)
    obtain rfl : last = last' := Except.ok.inj (loop_unique returned returned')
    exact left address member
  · rintro ⟨some_left, guarded⟩
    have kept := @loop_result _ _ (sweepTurn clock behaviour all) start
      (fun sweep => Visits (sweepTurn clock behaviour all) start sweep)
      (fun result => ∃ last, result = .ok last ∧ alive last address = true) ?_ fuel (.ok last) .start returned
    · obtain ⟨last', same, there⟩ := kept
      cases same
      exact there
    · intro sweep visits
      obtain ⟨behind, ahead, visited⟩ := visited_visits linked idle none visits
      rcases @swept_turn clock behaviour _ _ _ _ _ _ linked idle visited.swept with ⟨-, stops⟩ | ⟨next, turn, -⟩
      · exact .inr ⟨_, stops, sweep.timers, rfl, visited.here address member some_left guarded⟩
      · exact .inl ⟨next, turn, visits.turn turn⟩

end Loop

section Asyncs

variable {clock : Nat → BitVec 64} {behaviour : Nat → TimerCallback} {timers : Timers} {list : List Nat}

/-- The asyncs can be deleted just when each of them has a clear function. -/
theorem deleteAsyncs_iff (linked : Linked timers list) (asyncs : List Bool) :
    (∃ last, timers.deleteAsyncs clock behaviour asyncs = .ok last) ↔ ∀ clearfunc ∈ asyncs, clearfunc = true := by
  induction asyncs generalizing timers list with
  | nil => simp [Timers.deleteAsyncs]
  | cons clearfunc asyncs ih =>
    cases clearfunc with
    | false => simp [Timers.deleteAsyncs]
    | true =>
      obtain ⟨called, ret, list', performed, follows⟩ := @call_follows clock behaviour timers list linked
      rw [Timers.deleteAsyncs, if_pos rfl, performed, List.forall_mem_cons]
      exact (ih follows.linked).trans ⟨fun rest => ⟨rfl, rest⟩, And.right⟩

theorem delAsyncAll_iff (linked : Linked timers list) :
    (∃ last, timers.delAsyncAll clock behaviour = .ok last) ↔ ∀ clearfunc ∈ timers.asyncs, clearfunc = true :=
  deleteAsyncs_iff (follows_asyncs linked [] timers.calls).linked timers.asyncs

end Asyncs

/-- The timers are destroyed without a freed one being read and without a call of no function just when no clear function
    destroys the timer that comes next, and every async that waits then has a clear function. The loop ends after as many
    turns as there were timers, and leaves, in their order, none but protected ones, and these only if it is to spare them;
    and if no clear function destroys timers, it leaves all of these. -/
theorem destroy_timers (clock : Nat → BitVec 64) (behaviour : Nat → TimerCallback) (all : Bool) {timers : Timers}
    {list : List Nat} (linked : Linked timers list) (idle : timers.busy = []) :
    ((∀ fuel fault, timers.destroyTimers clock behaviour all fuel ≠ some (.error fault)) ↔
      SparesAll clock behaviour all timers ∧
        ∀ fuel last, timers.sweep clock behaviour all fuel = some (.ok last) → ∀ clearfunc ∈ last.asyncs, clearfunc = true) ∧
    (SparesAll clock behaviour all timers → ∀ fuel, list.length < fuel →
      ∃ result, timers.sweep clock behaviour all fuel = some result ∧ SweptClean all timers list result) ∧
    ((∀ call, DestroysNone (behaviour call).calls) → SparesAll clock behaviour all timers ∧
      ∀ fuel last, timers.sweep clock behaviour all fuel = some (.ok last) → ∀ address ∈ list,
        (alive last address = true ↔ all = false ∧ guards timers address = some true)) := by
  have ends : SparesAll clock behaviour all timers → ∀ fuel, list.length < fuel →
      ∃ result, timers.sweep clock behaviour all fuel = some result ∧ SweptClean all timers list result :=
    fun spares fuel enough => sweep_ends linked idle spares enough
  refine ⟨⟨?_, ?_⟩, ends, fun none => ⟨spares_none linked idle none, fun _ _ => sweep_exact linked idle none⟩⟩
  · intro never
    have spares : SparesAll clock behaviour all timers := by
      intro sweep visits
      by_contra unspared
      obtain ⟨fuel, failed⟩ := following_freed visits unspared
      apply never fuel .wildPointer
      rw [Timers.destroyTimers, failed]
      rfl
    refine ⟨spares, fun fuel last returned => ?_⟩
    obtain ⟨result, returned', last', fresh, rfl, linked', -⟩ := ends spares (list.length + 1) (Nat.lt_succ_self _)
    obtain rfl : last = last' := Except.ok.inj (loop_unique returned returned')
    rw [← @delAsyncAll_iff clock behaviour last _ linked']
    cases deleted : last.delAsyncAll clock behaviour with
    | ok final => exact ⟨final, rfl⟩
    | error fault =>
      refine absurd ?_ (never fuel fault)
      rw [Timers.destroyTimers, returned]
      exact congrArg some deleted
  · rintro ⟨spares, cleared⟩ fuel fault failed
    obtain ⟨result, returned, bound⟩ := Option.map_eq_some_iff.mp failed
    obtain ⟨result', returned', last, fresh, rfl, linked', -⟩ := ends spares (list.length + 1) (Nat.lt_succ_self _)
    obtain rfl : result = .ok last := loop_unique returned returned'
    obtain ⟨final, deleted⟩ := (@delAsyncAll_iff clock behaviour last _ linked').mpr (cleared fuel last returned)
    cases deleted.symm.trans bound

/-- A timer with a clear function, and an async without one. -/
def lateAsync : Except Fault Timers := noTimers.performAll (fun _ => 0#64) [.create 0#32 true, .async false]

/-- The list is taken apart, but then the clear function of the async is called. -/
theorem destroy_timers_late :
    (∃ timers list, lateAsync = .ok timers ∧ Linked timers list ∧
      SparesAll (fun _ => 0#64) (creates 0#32) true timers ∧
      ∃ result, timers.sweep (fun _ => 0#64) (creates 0#32) true (list.length + 1) = some result ∧
        SweptClean true timers list result) ∧
      lateAsync.map (fun timers => (timers.apeTimersDestroyAll (fun _ => 0#64) (creates 0#32) 2).map faultOf) =
        .ok (some (some .nullDereference)) := by
  refine ⟨?_, by decide⟩
  obtain ⟨timers, list, created, follows⟩ := @performAll_follows (fun _ => 0#64) _ _ linked_none
    [.create 0#32 true, .async false]
  obtain ⟨-, ends, spares⟩ := destroy_timers (fun _ => 0#64) (creates 0#32) true follows.linked follows.busy
  obtain ⟨spared, -⟩ := spares fun call other member address clearing => by
    rw [List.mem_singleton.mp member]
    simp
  exact ⟨timers, list, created, follows.linked, spared, ends spared _ (Nat.lt_succ_self _)⟩

end ZapeProof
