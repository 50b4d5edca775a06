import Zape.Ape.Pool
import Zape.Machine.Loop

/-! `ape_timers_next.c`: the list of timers, and the pass that runs those that are due. -/
namespace ZapeModel

open Machine

def apeTimerIsProtected : BitVec 32 := 0x01#32
def apeTimerIsCleared : BitVec 32 := 0x02#32

/-- In milliseconds. -/
def apeTimerResolution : Int := 8

def uint64Max : BitVec 64 := BitVec.allOnes 64

structure TimerStats where
  nexec : BitVec 32 := 0#32
  max : BitVec 32 := 0#32
  min : BitVec 32 := 0#32
  totaltime : BitVec 32 := 0#32

/-- `ape_timer_t`. What its callback does is not part of it; `clearfunc` tells whether there is one. -/
structure Timer where
  identifier : BitVec 64
  flags : BitVec 32 := apeTimerIsProtected
  ticksNeeds : BitVec 64
  schedule : BitVec 64
  clearfunc : Bool := false
  stats : TimerStats := {}
  next : Option Nat
  prev : Option Nat := none

/-- `ape_timers` and the memory of its timers: an address without a timer is not allocated yet, or was freed.
    `asyncs` is the list at `head_async`, each with whether it has a clear function. `samples` and `calls` count how often
    the clock was read and how many callbacks and clear functions were run, and `busy` are the timers for which one runs. -/
structure Timers where
  node : Nat → Option Timer
  count : Nat
  head : Option Nat
  asyncs : List Bool := []
  lastIdentifier : BitVec 64 := 0#64
  lowResolution : Bool := false
  samples : Nat := 0
  calls : Nat := 0
  busy : List Nat := []

/-- What a callback may ask for. A timer is destroyed together with what its clear function then asks for. -/
inductive TimerCall
  | create (ms : BitVec 32) (clearfunc : Bool)
  | async (clearfunc : Bool)
  | clearById (identifier : BitVec 64) (force : Bool)
  | destroy (timer : Nat) (clearing : List TimerCall)

/-- What a callback does, and what it returns. -/
structure TimerCallback where
  calls : List TimerCall := []
  ret : BitVec 32 := 0#32

namespace Timers

variable (clock : Nat → BitVec 64)

/-- `mach_absolute_time`. -/
def sample (timers : Timers) : BitVec 64 × Timers := (clock timers.samples, { timers with samples := timers.samples + 1 })

def write (timers : Timers) (address : Nat) (change : Timer → Timer) : Except Fault Timers :=
  match timers.node address with
  | none => .error .wildPointer
  | some timer => .ok { timers with node := Function.update timers.node address (some (change timer)) }

/-- `APE_timer_create`, and `APE_timer_setclearfunc` if the timer gets a clear function. -/
def apeTimerCreate (timers : Timers) (ms : BitVec 32) (clearfunc : Bool) : Except Fault Timers :=
  let ticksNeeds := ms.signExtend 64 * 1000000#64
  let (now, timers) := timers.sample clock
  let timer : Timer :=
    { identifier := timers.lastIdentifier + 1#64, ticksNeeds, schedule := now + ticksNeeds, clearfunc, next := timers.head }
  let address := timers.count
  let linked : Except Fault Timers :=
    match timers.head with
    | none => .ok timers
    | some head => timers.write head fun node => { node with prev := some address }
  linked.map fun timers =>
    { timers with
      node := Function.update timers.node address (some timer)
      count := timers.count + 1
      head := some address
      lastIdentifier := timers.lastIdentifier + 1#64 }

/-- The loop of `APE_timer_clearbyid` from a timer on, over so many timers. -/
def apeTimerClearbyid (timers : Timers) (identifier : BitVec 64) (force : Bool) : Nat → Option Nat → Except Fault Timers
  | 0, _ | _, none => .ok timers
  | left + 1, some address =>
    match timers.node address with
    | none => .error .wildPointer
    | some timer =>
      if timer.identifier = identifier then
        if timer.flags &&& apeTimerIsProtected = 0#32 ∨ force then
          timers.write address fun timer => { timer with flags := timer.flags ||| apeTimerIsCleared }
        else .ok timers
      else apeTimerClearbyid timers identifier force left timer.next

/-- The list without a timer: the first part of `ape_timer_destroy`. -/
def unlink (timers : Timers) (timer : Timer) : Except Fault Timers :=
  let before : Except Fault Timers :=
    match timer.prev with
    | none => .ok { timers with head := timer.next }
    | some prev => timers.write prev fun node => { node with next := timer.next }
  before.bind fun timers =>
    match timer.next with
    | none => .ok timers
    | some next => timers.write next fun node => { node with prev := timer.prev }

def release (timers : Timers) (address : Nat) : Timers :=
  { timers with node := Function.update timers.node address none }

def enter (timers : Timers) (address : Nat) : Timers := { timers with busy := address :: timers.busy }

def leave (timers : Timers) : Timers := { timers with busy := timers.busy.tail }

mutual

/-- A callback only destroys a timer that is there, and not one whose own callback or clear function is running. -/
def perform (timers : Timers) : TimerCall → Except Fault Timers
  | .create ms clearfunc => timers.apeTimerCreate clock ms clearfunc
  | .async clearfunc => .ok { timers with asyncs := clearfunc :: timers.asyncs }
  | .clearById identifier force => timers.apeTimerClearbyid identifier force timers.count timers.head
  | .destroy address clearing =>
    match timers.node address with
    | none => .ok timers
    | some timer =>
      if address ∈ timers.busy then .ok timers
      else
        (timers.unlink timer).bind fun timers =>
          let cleared := if timer.clearfunc then ((timers.enter address).performAll clearing).map leave else .ok timers
          cleared.map (·.release address)

def performAll (timers : Timers) : List TimerCall → Except Fault Timers
  | [] => .ok timers
  | call :: calls => (timers.perform call).bind (·.performAll calls)

end

variable (behaviour : Nat → TimerCallback)

/-- A callback or a clear function is called. -/
def call (timers : Timers) : Except Fault (Timers × BitVec 32) :=
  let callback := behaviour timers.calls
  (performAll clock { timers with calls := timers.calls + 1 } callback.calls).map fun timers => (timers, callback.ret)

/-- The loop of `process_async`. -/
def runAsyncs (timers : Timers) : List Bool → Except Fault Timers
  | [] => .ok timers
  | clearfunc :: asyncs =>
    (timers.call clock behaviour).bind fun (timers, _) =>
      let cleared := if clearfunc then (timers.call clock behaviour).map Prod.fst else .ok timers
      cleared.bind (·.runAsyncs asyncs)

def processAsync (timers : Timers) : Except Fault Timers :=
  runAsyncs clock behaviour { timers with asyncs := [] } timers.asyncs

/-- `ape_timer_destroy`, which returns the timer behind the one that is destroyed. -/
def apeTimerDestroy (timers : Timers) (address : Nat) : Except Fault (Timers × Option Nat) :=
  match timers.node address with
  | none => .error .wildPointer
  | some timer =>
    (timers.unlink timer).bind fun timers =>
      let cleared :=
        if timer.clearfunc then ((timers.enter address).call clock behaviour).map (·.1.leave) else .ok timers
      cleared.map fun timers => (timers.release address, timer.next)

end Timers

/-- The places in the scan of `ape_timers_process` that it goes through for a timer. -/
inductive ScanLabel
  | visit
  | destroy
  | pass
  deriving DecidableEq, Repr

/-- The scan of `ape_timers_process`, with its local variables. -/
structure Scan where
  timers : Timers
  cur : Option Nat
  inums : BitVec 64 := uint64Max
  lastsample : BitVec 64 := 0#64
  label : ScanLabel := .visit

section Scan

variable (clock : Nat → BitVec 64) (behaviour : Nat → TimerCallback)

abbrev ScanTurn := Turn Scan (Except Fault Scan)

/-- The timer is not freed while its callback runs, so it can be written afterwards. -/
def reschedule (timers : Timers) (address : Nat) (start ret : BitVec 64) : Except Fault Timers :=
  timers.write address fun timer =>
    if ret = uint64Max then { timer with schedule := start + timer.ticksNeeds }
    else { timer with ticksNeeds := ret * 1000000#64, schedule := start + ret * 1000000#64 }

def TimerStats.add (stats : TimerStats) (duration : BitVec 32) : TimerStats :=
  let spent := duration / 1000000#32
  { nexec := stats.nexec + 1#32
    max := if stats.max.ult spent then spent else stats.max
    min := if stats.min = 0#32 ∨ spent.ult stats.min then spent else stats.min
    totaltime := stats.totaltime + spent }

def runTimer (scan : Scan) (timers : Timers) (address : Nat) (start : BitVec 64) : ScanTurn :=
  match (timers.enter address).call clock behaviour with
  | .error fault => .done (.error fault)
  | .ok (timers, ret) =>
    let ret := ret.signExtend 64
    let timers := timers.leave
    if ret = 0#64 then .again { scan with timers, label := .destroy }
    else
      match reschedule timers address start ret with
      | .error fault => .done (.error fault)
      | .ok timers =>
        let (lastsample, timers) := timers.sample clock
        let duration := (lastsample - start).setWidth 32
        match timers.write address fun timer => { timer with stats := timer.stats.add duration } with
        | .error fault => .done (.error fault)
        | .ok timers => .again { scan with timers, lastsample, label := .pass }

def scanTurn (scan : Scan) : ScanTurn :=
  match scan.cur with
  | none => .done (.ok scan)
  | some address =>
    match scan.timers.node address with
    | none => .done (.error .wildPointer)
    | some timer =>
      match scan.label with
      | .visit =>
        if timer.flags &&& apeTimerIsCleared ≠ 0#32 then .again { scan with label := .destroy }
        else
          let (start, timers) := scan.timers.sample clock
          if (timer.schedule - 150000#64).ule start then runTimer clock behaviour scan timers address start
          else .again { scan with timers, label := .pass }
      | .destroy =>
        match scan.timers.apeTimerDestroy clock behaviour address with
        | .error fault => .done (.error fault)
        | .ok (timers, next) => .again { scan with timers, cur := next, label := .visit }
      | .pass =>
        let inums := if timer.schedule.ult scan.inums then timer.schedule else scan.inums
        .again { scan with cur := timer.next, inums, label := .visit }

/-- The scan, with at most so many turns. -/
def scanTimers (fuel : Nat) (timers : Timers) : Option (Except Fault Scan) :=
  match timers.processAsync clock behaviour with
  | .error fault => some (.error fault)
  | .ok after => loop (scanTurn clock behaviour) fuel { timers := after, cur := timers.head }

/-- In milliseconds, as it is returned. -/
def nextTimeout (low : Bool) (inums lastsample : BitVec 64) : Int :=
  max (if low then 100 else 1) (((inums - lastsample + 500000#64) / 1000000#64).setWidth 32).toInt

/-- What follows the scan. -/
def finishScan (scan : Scan) : Except Fault (Timers × Int) :=
  (scan.timers.processAsync clock behaviour).map fun timers =>
    if scan.inums = uint64Max then (timers, apeTimerResolution)
    else
      let (lastsample, timers) :=
        if scan.lastsample = 0#64 then timers.sample clock else (scan.lastsample, timers)
      (timers, nextTimeout timers.lowResolution scan.inums lastsample)

def apeTimersProcess (fuel : Nat) (timers : Timers) : Option (Except Fault (Timers × Int)) :=
  (scanTimers clock behaviour fuel timers).map (·.bind (finishScan clock behaviour))

end Scan

end ZapeModel
