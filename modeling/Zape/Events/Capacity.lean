import Zape.Events.Epoll
import Zape.Machine.Powers
import Zape.Machine.Runs

/-! The array that `epoll_wait` and `kevent` fill: how `ape_events.c` lets it grow and shrink with the descriptors. -/
namespace ZapeModel

open Machine

/-- The back-ends that fill an array of events. -/
inductive EventHandler
  | epoll
  | kqueue
  deriving DecidableEq, Repr

/-- `struct _fdevent` with the number of events that there is room for in `events`, the size that was last asked for, and
    the descriptors that were added and not deleted. -/
structure EventArray where
  handler : EventHandler
  basemem : BitVec 32
  nfd : BitVec 32
  events : BitVec 32
  size : BitVec 32
  managed : List Int := []

inductive EventsCall
  | add (fd : Int)
  | del (fd : Int)
  | shrink
  deriving DecidableEq, Repr

def apeDefaultEventsSize : BitVec 32 := 32#32

/-- `ape_max` of `unsigned int`. -/
def apeMax (val1 val2 : BitVec 32) : BitVec 32 := if val1 < val2 then val2 else val1

/-- `_nextpoweroftwo` -/
def nextpoweroftwo (v : BitVec 32) : BitVec 32 :=
  let v := v - 1#32
  let v := v ||| v >>> 1
  let v := v ||| v >>> 2
  let v := v ||| v >>> 4
  let v := v ||| v >>> 8
  let v := v ||| v >>> 16
  v + 1#32

/-- `kevent` may report reading and writing of a descriptor apart. -/
def EventHandler.room (handler : EventHandler) (size : BitVec 32) : BitVec 32 :=
  match handler with
  | .epoll => size
  | .kqueue => size * 2#32

namespace EventArray

def eventsInit (handler : EventHandler) : EventArray where
  handler := handler
  basemem := apeDefaultEventsSize
  nfd := 0#32
  events := handler.room apeDefaultEventsSize
  size := apeDefaultEventsSize

/-- `event_epoll_setsize` and `event_kqueue_setsize` -/
def setsize (ev : EventArray) (size : BitVec 32) : EventArray := { ev with events := ev.handler.room size, size }

def eventsSetsize (ev : EventArray) (size : BitVec 32) : EventArray := { ev with basemem := size }.setsize size

/-- `events_add` of a descriptor that the back-end accepts. -/
def eventsAdd (ev : EventArray) (fd : Int) : EventArray :=
  let ev := { ev with nfd := ev.nfd + 1#32 }
  let ev := if ev.basemem.slt ev.nfd then ev.eventsSetsize (ev.basemem <<< 1) else ev
  { ev with managed := ev.managed ++ [fd] }

/-- Neither back-end has a `del`. -/
def eventsDel (ev : EventArray) (fd : Int) : EventArray :=
  { ev with nfd := ev.nfd - 1#32, managed := ev.managed.erase fd }

def eventsShrink (ev : EventArray) : EventArray :=
  let curmem := ev.basemem
  if curmem = apeDefaultEventsSize then ev
  else
    let prevmem := curmem.sshiftRight 1
    if prevmem.sle ev.nfd then ev
    -- the minimum is compared with an `unsigned int`
    else ev.eventsSetsize (apeMax apeDefaultEventsSize (nextpoweroftwo ev.nfd))

def perform (ev : EventArray) : EventsCall → Except Fault EventArray
  | .add fd => .ok (ev.eventsAdd fd)
  | .del fd => .ok (ev.eventsDel fd)
  | .shrink => .ok ev.eventsShrink

end EventArray

end ZapeModel

namespace ZapeProof

open Machine ZapeModel

/-- Each descriptor that is deleted was added, and there are fewer than 2^30 of them. -/
def FewManaged (ev : EventArray) : EventsCall → Prop
  | .add _ => ev.managed.length + 1 < 2 ^ 30
  | .del fd => fd ∈ ev.managed
  | .shrink => True

/-- The array has a power of two of at least 32 entries, as it was last asked for, and one for each descriptor. -/
def HoldsManaged (ev : EventArray) : Prop :=
  (∃ k, 5 ≤ k ∧ ev.basemem.toInt = 2 ^ k) ∧ ev.size = ev.basemem ∧ ev.nfd.toInt ≤ ev.basemem.toInt

/-- At least half of the array is in use, where it is larger than at the start. -/
def HalfUsed (ev : EventArray) : Prop := ev.basemem.toInt = 32 ∨ ev.basemem.toInt / 2 ≤ ev.nfd.toInt

structure Managed (ev : EventArray) : Prop where
  power : ∃ k, 5 ≤ k ∧ k ≤ 30 ∧ ev.basemem.toNat = 2 ^ k
  asked : ev.size = ev.basemem
  events : ev.events = ev.handler.room ev.basemem
  counts : ev.nfd.toNat = ev.managed.length
  few : ev.managed.length < 2 ^ 30
  enough : ev.nfd.toNat ≤ ev.basemem.toNat

section Rounding

variable {v : BitVec 32}

theorem nextpoweroftwo_spread (two : 2 ≤ v.toNat) (below : v.toNat ≤ 2 ^ 31) :
    (nextpoweroftwo v).toNat = 2 ^ ((v.toNat - 1).log2 + 1) := by
  have before : (v - 1#32).toNat = v.toNat - 1 := by
    rw [BitVec.toNat_sub]
    simp
    omega
  have low : (v.toNat - 1).log2 < 31 := by
    rw [Nat.log2_lt (by omega)]
    omega
  have first := @spread_log2 (v - 1#32).toNat (by omega)
  have all := spread_all (spread_or (spread_or (spread_or (spread_or (spread_or first))))) (by rw [before]; omega)
  have fits : 2 ^ ((v.toNat - 1).log2 + 1) ≤ 2 ^ 31 := Nat.pow_le_pow_right (by omega) (by omega)
  have positive : 0 < 2 ^ ((v.toNat - 1).log2 + 1) := Nat.two_pow_pos _
  unfold nextpoweroftwo
  simp only [BitVec.toNat_add, BitVec.toNat_or, BitVec.toNat_ushiftRight]
  rw [all, before]
  simp
  omega

end Rounding

section Calls

variable {ev : EventArray}

theorem toInt_small {x : BitVec 32} (small : x.toNat ≤ 2 ^ 30) : x.toInt = x.toNat := by
  apply BitVec.toInt_eq_toNat_of_lt
  omega

theorem Managed.bound (managed : Managed ev) : ev.basemem.toNat ≤ 2 ^ 30 := by
  obtain ⟨k, -, high, power⟩ := managed.power
  rw [power]
  exact Nat.pow_le_pow_right (by omega) high

theorem Managed.holds (managed : Managed ev) : HoldsManaged ev := by
  obtain ⟨k, low, -, power⟩ := managed.power
  have bound := managed.bound
  have enough := managed.enough
  unfold HoldsManaged
  rw [toInt_small bound, toInt_small (by omega)]
  exact ⟨⟨k, low, by exact_mod_cast power⟩, managed.asked, by exact_mod_cast enough⟩

theorem managed_init (handler : EventHandler) : Managed (EventArray.eventsInit handler) where
  power := ⟨5, by omega, by omega, rfl⟩
  asked := rfl
  events := rfl
  counts := rfl
  few := Nat.two_pow_pos 30
  enough := Nat.zero_le _

theorem Managed.setsize {size : BitVec 32} {k : Nat} (managed : Managed ev) (low : 5 ≤ k) (high : k ≤ 30)
    (power : size.toNat = 2 ^ k) (enough : ev.nfd.toNat ≤ size.toNat) : Managed (ev.eventsSetsize size) where
  power := ⟨k, low, high, power⟩
  asked := rfl
  events := rfl
  counts := managed.counts
  few := managed.few
  enough := enough

theorem Managed.counted (managed : Managed ev) : (ev.nfd + 1#32).toNat = ev.nfd.toNat + 1 := by
  have counts := managed.counts
  have few := managed.few
  rw [BitVec.toNat_add]
  simp
  omega

theorem Managed.uncounted (managed : Managed ev) {fd : Int} (member : fd ∈ ev.managed) :
    (ev.nfd - 1#32).toNat + 1 = ev.nfd.toNat := by
  have counts := managed.counts
  have few := managed.few
  have some := List.length_pos_of_mem member
  rw [BitVec.toNat_sub]
  simp
  omega

theorem Managed.full_iff (managed : Managed ev) :
    ev.basemem.slt (ev.nfd + 1#32) = true ↔ ev.basemem.toNat < ev.nfd.toNat + 1 := by
  have counts := managed.counts
  have few := managed.few
  have next := managed.counted
  rw [BitVec.slt_iff_toInt_lt, toInt_small managed.bound, toInt_small (by omega), next]
  omega

/-- The array is doubled by one descriptor too many, so that it had an entry for every one before. -/
theorem Managed.doubled (managed : Managed ev) (few : ev.managed.length + 1 < 2 ^ 30)
    (full : ev.basemem.toNat < ev.nfd.toNat + 1) :
    (ev.basemem <<< 1).toNat = 2 * ev.basemem.toNat ∧ ∃ k, 5 ≤ k ∧ k ≤ 30 ∧ (ev.basemem <<< 1).toNat = 2 ^ k := by
  obtain ⟨k, low, high, power⟩ := managed.power
  have counts := managed.counts
  have enough := managed.enough
  have smaller : k < 30 := by
    by_contra large
    have whole : k = 30 := by omega
    rw [whole] at power
    omega
  have twice : 2 ^ (k + 1) = 2 * ev.basemem.toNat := by rw [power, Nat.pow_succ, Nat.mul_comm]
  have double : (ev.basemem <<< 1).toNat = 2 ^ (k + 1) := by
    have fits : 2 ^ (k + 1) ≤ 2 ^ 30 := Nat.pow_le_pow_right (by omega) (by omega)
    rw [BitVec.toNat_shiftLeft, power, Nat.shiftLeft_eq, ← Nat.pow_succ]
    omega
  exact ⟨double.trans twice, k + 1, by omega, by omega, double⟩

theorem Managed.add (managed : Managed ev) (fd : Int) (few : ev.managed.length + 1 < 2 ^ 30) :
    Managed (ev.eventsAdd fd) := by
  have counts := managed.counts
  have enough := managed.enough
  have next := managed.counted
  have length : (ev.managed ++ [fd]).length = ev.managed.length + 1 := by simp
  unfold EventArray.eventsAdd
  by_cases full : ev.basemem.toNat < ev.nfd.toNat + 1
  · obtain ⟨double, power⟩ := managed.doubled few full
    simp only [if_pos (managed.full_iff.mpr full)]
    refine { power, asked := rfl, events := rfl, counts := ?_, few := ?_, enough := ?_ }
    · show (ev.nfd + 1#32).toNat = (ev.managed ++ [fd]).length
      omega
    · show (ev.managed ++ [fd]).length < 2 ^ 30
      omega
    · have some : 0 < ev.basemem.toNat := by
        obtain ⟨k, -, -, power⟩ := managed.power
        rw [power]
        exact Nat.two_pow_pos k
      show (ev.nfd + 1#32).toNat ≤ (ev.basemem <<< 1).toNat
      omega
  · simp only [if_neg (fun grows => full (managed.full_iff.mp grows))]
    refine { power := managed.power, asked := managed.asked, events := managed.events, counts := ?_, few := ?_,
             enough := ?_ }
    · show (ev.nfd + 1#32).toNat = (ev.managed ++ [fd]).length
      omega
    · show (ev.managed ++ [fd]).length < 2 ^ 30
      omega
    · show (ev.nfd + 1#32).toNat ≤ ev.basemem.toNat
      omega

theorem Managed.del (managed : Managed ev) {fd : Int} (member : fd ∈ ev.managed) : Managed (ev.eventsDel fd) := by
  have counts := managed.counts
  have few := managed.few
  have enough := managed.enough
  have next := managed.uncounted member
  have length : (ev.managed.erase fd).length = ev.managed.length - 1 := List.length_erase_of_mem member
  refine { power := managed.power, asked := managed.asked, events := managed.events, counts := ?_, few := ?_, enough := ?_ }
  · show (ev.nfd - 1#32).toNat = (ev.managed.erase fd).length
    omega
  · show (ev.managed.erase fd).length < 2 ^ 30
    omega
  · show (ev.nfd - 1#32).toNat ≤ ev.basemem.toNat
    omega

theorem apeMax_small {size : BitVec 32} (small : size.toNat ≤ 32) : apeMax apeDefaultEventsSize size = 32#32 := by
  have order : ¬ 32#32 < size := by
    rw [BitVec.lt_def]
    simpa using small
  exact if_neg order

/-- What is left after shrinking is the initial size, or the least power of two that is enough. -/
theorem Managed.shrink (managed : Managed ev) : Managed ev.eventsShrink ∧ HalfUsed ev.eventsShrink := by
  obtain ⟨k, low, high, power⟩ := managed.power
  have bound := managed.bound
  have enough := managed.enough
  have counts := managed.counts
  have few := managed.few
  have half : (ev.basemem.sshiftRight 1).toInt = ev.basemem.toNat / 2 := by
    rw [BitVec.toInt_sshiftRight, toInt_small bound, Int.shiftRight_eq_div_pow]
    rfl
  have used : (ev.basemem.sshiftRight 1).sle ev.nfd = true ↔ ev.basemem.toNat / 2 ≤ ev.nfd.toNat := by
    rw [BitVec.sle_iff_toInt_le, half, toInt_small (by omega)]
    omega
  unfold EventArray.eventsShrink
  by_cases initial : ev.basemem = apeDefaultEventsSize
  · simp only [if_pos initial]
    refine ⟨managed, .inl ?_⟩
    rw [initial]
    rfl
  · simp only [if_neg initial]
    by_cases many : ev.basemem.toNat / 2 ≤ ev.nfd.toNat
    · rw [if_pos (used.mpr many)]
      refine ⟨managed, .inr ?_⟩
      rw [toInt_small bound, toInt_small (by omega)]
      omega
    · rw [if_neg fun fewer => many (used.mp fewer)]
      by_cases two : 2 ≤ ev.nfd.toNat
      · have rounded := nextpoweroftwo_spread two (by omega)
        obtain ⟨above, below⟩ := two_pow_log2 two
        have exponent : (ev.nfd.toNat - 1).log2 < 30 := by
          rw [Nat.log2_lt (by omega)]
          omega
        generalize (ev.nfd.toNat - 1).log2 = p at rounded above below exponent
        by_cases large : 32 < 2 ^ (p + 1)
        · have order : apeDefaultEventsSize < nextpoweroftwo ev.nfd := by
            rw [BitVec.lt_def, rounded]
            exact large
          have five : 5 ≤ p + 1 := (Nat.pow_lt_pow_iff_right (by omega : 1 < 2)).mp (by simpa using large) |>.le
          have size : apeMax apeDefaultEventsSize (nextpoweroftwo ev.nfd) = nextpoweroftwo ev.nfd := if_pos order
          rw [size]
          refine ⟨managed.setsize five (by omega) rounded (by omega), .inr ?_⟩
          show (nextpoweroftwo ev.nfd).toInt / 2 ≤ ev.nfd.toInt
          have fits : 2 ^ (p + 1) ≤ 2 ^ 30 := Nat.pow_le_pow_right (by omega) (by omega)
          rw [toInt_small (by omega), toInt_small (by omega)]
          omega
        · rw [apeMax_small (by omega)]
          refine ⟨managed.setsize (Nat.le_refl 5) (by omega) rfl ?_, .inl rfl⟩
          show ev.nfd.toNat ≤ 32
          omega
      · have none : nextpoweroftwo ev.nfd = 0#32 ∨ nextpoweroftwo ev.nfd = 1#32 := by
          have count : ev.nfd.toNat = 0 ∨ ev.nfd.toNat = 1 := by omega
          rcases count with zero | one
          · left
            rw [show ev.nfd = 0#32 from BitVec.eq_of_toNat_eq zero]
            decide
          · right
            rw [show ev.nfd = 1#32 from BitVec.eq_of_toNat_eq one]
            decide
        have small : (nextpoweroftwo ev.nfd).toNat ≤ 32 := by
          rcases none with zero | one
          · rw [zero]
            decide
          · rw [one]
            decide
        rw [apeMax_small small]
        refine ⟨managed.setsize (Nat.le_refl 5) (by omega) rfl ?_, .inl rfl⟩
        show ev.nfd.toNat ≤ 32
        omega

theorem Managed.perform (managed : Managed ev) {call : EventsCall} (few : FewManaged ev call) :
    ∃ next, ev.perform call = .ok next ∧ Managed next := by
  cases call with
  | add fd => exact ⟨_, rfl, managed.add fd few⟩
  | del fd => exact ⟨_, rfl, managed.del few⟩
  | shrink => exact ⟨_, rfl, managed.shrink.1⟩

end Calls

section Refine

/-- The counters are those of the event loop's model, which has them as integers. -/
structure Counts (ev : EventArray) (loop : Fdevent) : Prop where
  nfd : ev.nfd.toInt = loop.nfd
  basemem : ev.basemem.toInt = loop.basemem

variable {ev : EventArray} {loop : Fdevent}

theorem counts_init : Counts (EventArray.eventsInit .epoll) {} where
  nfd := rfl
  basemem := rfl

theorem counts_add (managed : Managed ev) (counts : Counts ev loop) {fd : Int} (few : FewManaged ev (.add fd))
    (evd : EventDescriptor) (bitadd : BitVec 32) (accepted : Bool) :
    Counts (ev.eventsAdd fd) (loop.eventsAdd fd evd bitadd accepted).1 := by
  have kept : ∀ grown : Fdevent, (grown.eventEpollAdd fd evd bitadd accepted).1.nfd = grown.nfd ∧
      (grown.eventEpollAdd fd evd bitadd accepted).1.basemem = grown.basemem := by
    intro grown
    unfold Fdevent.eventEpollAdd
    split <;> exact ⟨rfl, rfl⟩
  have added : ev.managed.length + 1 < 2 ^ 30 := few
  have lengths := managed.counts
  have nfd : (ev.nfd + 1#32).toInt = loop.nfd + 1 := by
    have old := counts.nfd
    have next := managed.counted
    rw [toInt_small (by omega)] at old ⊢
    omega
  have order : ev.basemem.slt (ev.nfd + 1#32) = true ↔ loop.nfd + 1 > loop.basemem := by
    rw [BitVec.slt_iff_toInt_lt, nfd, counts.basemem]
  unfold EventArray.eventsAdd Fdevent.eventsAdd
  dsimp only
  constructor
  · rw [(kept _).1]
    split
    · split <;> exact nfd
    · split <;> exact nfd
  · rw [(kept _).2]
    by_cases grows : loop.nfd + 1 > loop.basemem
    · rw [if_pos grows, if_pos (order.mpr grows)]
      have old := counts.basemem
      obtain ⟨double, k, -, high, power⟩ := managed.doubled added (managed.full_iff.mp (order.mpr grows))
      have fits : 2 ^ k ≤ 2 ^ 30 := Nat.pow_le_pow_right (by omega) high
      show (ev.basemem <<< 1).toInt = loop.basemem * 2
      rw [toInt_small managed.bound] at old
      rw [toInt_small (by omega)]
      omega
    · rw [if_neg grows, if_neg fun full => grows (order.mp full)]
      exact counts.basemem

theorem counts_del (managed : Managed ev) (counts : Counts ev loop) {fd : Int} (few : FewManaged ev (.del fd)) :
    Counts (ev.eventsDel fd) loop.eventsDel where
  nfd := by
    have old := counts.nfd
    have next := managed.uncounted few
    have lengths := managed.counts
    have below := managed.few
    show (ev.nfd - 1#32).toInt = loop.nfd - 1
    rw [toInt_small (by omega)] at old ⊢
    omega
  basemem := counts.basemem

end Refine

section Runs

/-- In every run the array keeps pace with the descriptors, and a call of `events_shrink` leaves it at most half empty. -/
theorem events_keep_pace (handler : EventHandler) (calls : List EventsCall)
    (few : EachStep EventArray.perform (EventArray.eventsInit handler) calls FewManaged) :
    ∃ ev, runAll EventArray.perform (EventArray.eventsInit handler) calls = .ok ev ∧ HoldsManaged ev ∧
      (calls.getLast? = some .shrink → HalfUsed ev) := by
  have total : ∀ before after, calls = before ++ after →
      ∃ ev, runAll EventArray.perform (EventArray.eventsInit handler) before = .ok ev ∧ Managed ev := by
    apply runAll_total (managed_init handler)
    intro before call after ev split reached managed
    exact managed.perform (few before call after ev split reached)
  obtain ⟨ev, reached, managed⟩ := total calls [] (List.append_nil calls).symm
  refine ⟨ev, reached, managed.holds, fun last => ?_⟩
  obtain ⟨before, rfl⟩ := List.getLast?_eq_some_iff.mp last
  obtain ⟨found, earlier, kept⟩ := total before [.shrink] rfl
  rw [runAll_snoc earlier] at reached
  cases reached
  exact kept.shrink.2

instance (ev : EventArray) (call : EventsCall) : Decidable (FewManaged ev call) :=
  match call with
  | .add _ => inferInstanceAs (Decidable (ev.managed.length + 1 < 2 ^ 30))
  | .del fd => inferInstanceAs (Decidable (fd ∈ ev.managed))
  | .shrink => inferInstanceAs (Decidable True)

/-- One descriptor more than the array has entries at first, and all of them deleted. -/
def comeAndGo : List EventsCall :=
  (List.range 33).map (fun fd : Nat => .add fd) ++ (List.range 33).map (fun fd : Nat => .del fd) ++ [.shrink]

theorem events_come_and_go : ∃ ev, runAll EventArray.perform (EventArray.eventsInit .kqueue) comeAndGo = .ok ev ∧
    HoldsManaged ev ∧ (comeAndGo.getLast? = some .shrink → HalfUsed ev) :=
  events_keep_pace .kqueue comeAndGo (each_of_check (by decide +kernel))

end Runs

end ZapeProof
