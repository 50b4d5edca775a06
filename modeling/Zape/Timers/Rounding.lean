import Zape.Timers.Passing

/-! The timeout of a pass is the time to the first timer that it keeps, to the millisecond. -/
namespace ZapeProof

open Machine ZapeModel

section Definitions

variable (clock : Nat → BitVec 64) (behaviour : Nat → TimerCallback)

/-- The least schedule of those timers of a list that are still there. -/
structure FirstKept (final : Timers) (list : List Nat) (d : BitVec 64) : Prop where
  kept : ∃ address ∈ list, (plans final address).map Plan.schedule = some d
  least : ∀ address ∈ list, ∀ plan, plans final address = some plan → d.toNat ≤ plan.schedule.toNat

/-- From 2*10^9 milliseconds before to the largest `int` of them after. -/
def InReach (d now : BitVec 64) : Prop :=
  now.toNat ≤ d.toNat + 2000000000000000 ∧ d.toNat ≤ now.toNat + 2147483647000000

/-- What a pass returns for the first schedule that is kept. The largest one counts as none. -/
def timeoutTo (low : Bool) (d now : BitVec 64) : Int :=
  if d = uint64Max then apeTimerResolution else max (if low then 100 else 1) (due d now)

/-- A pass comes to an end, with this scan and this result. -/
def PassEnds (timers : Timers) (scan : Scan) (final : Timers) (timeout : Int) : Prop :=
  ∃ turns, ∀ fuel, turns ≤ fuel → scanTimers clock behaviour fuel timers = some (.ok scan) ∧
    apeTimersProcess clock behaviour fuel timers = some (.ok (final, timeout))

end Definitions

section Arithmetic

variable {low : Bool} {d now : BitVec 64}

/-- Where the deadline is past, the quotient of the wrapped difference is negative as an `int`. -/
theorem timeout_exact (reach : InReach d now) : nextTimeout low d now = max (if low then 100 else 1) (due d now) := by
  obtain ⟨late, near⟩ := reach
  apply le_antisymm
  · exact timeout_le low d now (by omega)
  · apply max_le
    · exact le_max_left _ _
    · exact due_le low d now (by omega)

/-- The quotient counts as at most 0 when the deadline is past. -/
theorem due_past (past : d.toNat < now.toNat) : due d now ≤ 0 := by
  unfold due
  omega

end Arithmetic

section Kept

variable {clock : Nat → BitVec 64} {behaviour : Nat → TimerCallback} {timers after : Timers} {list : List Nat}
  {scan last : Scan} {fuel : Nat}

/-- A timer that the scan goes past is there at its end, with the same schedule. -/
theorem passed_kept (spares : ∀ call, DestroysNone (behaviour call).calls) (linked : Linked timers list)
    (idle : timers.busy = []) (done : timers.processAsync clock behaviour = .ok after)
    (looped : loop (scanTurn clock behaviour) fuel { timers := after, cur := timers.head } = some (.ok last))
    (visits : Visits (scanTurn clock behaviour) { timers := after, cur := timers.head } scan) (label : scan.label = .pass)
    {address : Nat} {timer : Timer} (cur : scan.cur = some address) (node : scan.timers.node address = some timer) :
    address < timers.count ∧ plans last.timers address = some (planOf timer) := by
  obtain ⟨head, next⟩ := spared_of_returned done looped
  obtain ⟨behind, ahead, scanned⟩ := scanned_visits linked idle done head next visits
  obtain ⟨rest, rfl⟩ : ∃ rest, ahead = address :: rest := by
    have first := scanned.cur.symm.trans cur
    cases ahead with
    | nil => cases first
    | cons other rest => exact ⟨rest, congrArg (· :: rest) (Option.some.inj first)⟩
  obtain ⟨following, turn, visit, forward, same⟩ := @pass_turn clock behaviour scan _ rest address scanned.linked cur label
  have linked' : Linked following.timers ((behind ++ [address]) ++ rest) := by
    rw [same, List.append_assoc]
    exact scanned.linked
  have idle' : following.timers.busy = [] := by
    rw [same]
    exact scanned.busy
  obtain ⟨states, final, walked⟩ := @scan_walked clock _ _ _ _ spares linked' idle' forward visit
  have ends : scanTurn clock behaviour final = .done (.ok final) := by
    have stops : final.cur = none := walked.cur
    simp only [scanTurn, stops]
  obtain ⟨-, returned⟩ := turns_stretch walked.leads 1
  rw [loop_done ends] at returned
  obtain ⟨left, remaining⟩ := loop_from_visits (visits.turn turn) looped
  have unique : last = final := Except.ok.inj (loop_unique remaining returned)
  have outside : address ∉ rest := by
    have nodup := (List.nodup_append.mp scanned.linked.nodup).2.1
    exact (List.nodup_cons.mp nodup).1
  refine ⟨scanned.old address List.mem_cons_self, ?_⟩
  rw [unique, walked.others address ?_ outside, same]
  · exact plans_some node
  · rw [same]
    exact scanned.linked.below address (alive_some node)

end Kept

section Rounds

end Rounds

def nearTheEnd : Nat → BitVec 64 := fun _ => 18446744072709551615#64

def idleCallbacks : Nat → TimerCallback := fun _ => {}

end ZapeProof
