import Zape.Ape.Pool

/-! `ape_timers_next.c`: the asyncs, with the calls that their callbacks and clear functions make while they run. -/
namespace ZapeModel

/-- A place where the code waits for a callback or a clear function, with the asyncs that the loop there still has
    in hand. -/
inductive AsyncFrame
  | callback (cur : Nat) (rest : List Nat)
  | clearing (cur : Nat) (rest : List Nat)
  | destroying (async : Nat)
  | deleting (async : Nat) (rest : List Nat)
  deriving DecidableEq, Repr

inductive AsyncEvent
  | create (async : Nat)
  | set (async : Nat) (clearfunc : Bool)
  | destroy (async : Nat)
  | run (async : Nat)
  | clear (async : Nat)
  | free (async : Nat)
  deriving DecidableEq, Repr

/-- `ape_timers`, as far as it is about asyncs. Of an async the memory holds whether it has a clear function; an
    address without an async is not allocated yet, or was freed. `frames` is the stack. -/
structure Asyncs where
  node : Nat → Option Bool := fun _ => none
  count : Nat := 0
  headAsync : List Nat := []
  frames : List AsyncFrame := []
  log : List AsyncEvent := []

namespace Asyncs

def emit (asyncs : Asyncs) (event : AsyncEvent) : Asyncs := { asyncs with log := asyncs.log ++ [event] }

def enter (asyncs : Asyncs) (frame : AsyncFrame) : Asyncs := { asyncs with frames := frame :: asyncs.frames }

def free (asyncs : Asyncs) (async : Nat) : Asyncs :=
  { asyncs with node := Function.update asyncs.node async none }.emit (.free async)

def apeAsync (asyncs : Asyncs) : Asyncs :=
  { asyncs with
    node := Function.update asyncs.node asyncs.count (some false)
    count := asyncs.count + 1
    headAsync := asyncs.count :: asyncs.headAsync }.emit (.create asyncs.count)

def apeAsyncSetclearfunc (asyncs : Asyncs) (async : Nat) (clearfunc : Bool) : Except Fault Asyncs :=
  match asyncs.node async with
  | none => .error .wildPointer
  | some _ =>
    .ok ({ asyncs with node := Function.update asyncs.node async (some clearfunc) }.emit (.set async clearfunc))

/-- A call with an address that no async ever had does not happen. -/
def apeAsyncDestroy (asyncs : Asyncs) (async : Nat) : Except Fault Asyncs :=
  if asyncs.count ≤ async then .ok asyncs
  else
    let asyncs := asyncs.emit (.destroy async)
    if async ∈ asyncs.headAsync then
      let asyncs := { asyncs with headAsync := asyncs.headAsync.erase async }
      match asyncs.node async with
      | none => .error .wildPointer
      | some true => .ok ((asyncs.emit (.clear async)).enter (.destroying async))
      | some false => .ok (asyncs.free async)
    else .ok asyncs

/-- The loop of `process_async`, up to the next callback. -/
def runNext (asyncs : Asyncs) : List Nat → Except Fault Asyncs
  | [] => .ok asyncs
  | cur :: ctmp =>
    match asyncs.node cur with
    | none => .error .wildPointer
    | some _ => .ok ((asyncs.emit (.run cur)).enter (.callback cur ctmp))

def processAsync (asyncs : Asyncs) : Except Fault Asyncs := { asyncs with headAsync := [] }.runNext asyncs.headAsync

/-- The loop of `del_async_all`, up to the next clear function. -/
def deleteNext (asyncs : Asyncs) : List Nat → Except Fault Asyncs
  | [] => .ok asyncs
  | async :: tmp =>
    match asyncs.node async with
    | none => .error .wildPointer
    | some false => .error .nullDereference
    | some true => .ok ((asyncs.emit (.clear async)).enter (.deleting async tmp))

def delAsyncAll (asyncs : Asyncs) : Except Fault Asyncs := { asyncs with headAsync := [] }.deleteNext asyncs.headAsync

/-- What follows when the callback or clear function that runs returns. -/
def resume (asyncs : Asyncs) : Except Fault Asyncs :=
  match asyncs.frames with
  | [] => .ok asyncs
  | frame :: frames =>
    let asyncs := { asyncs with frames }
    match frame with
    | .callback cur ctmp =>
      match asyncs.node cur with
      | none => .error .wildPointer
      | some true => .ok ((asyncs.emit (.clear cur)).enter (.clearing cur ctmp))
      | some false => (asyncs.free cur).runNext ctmp
    | .clearing cur ctmp => (asyncs.free cur).runNext ctmp
    | .destroying async => .ok (asyncs.free async)
    | .deleting async tmp => (asyncs.free async).deleteNext tmp

end Asyncs

/-- What can happen next: a call, from a callback or clear function when one runs, or the return from it.
    `ape_timers_process` calls `process_async` before and after the callbacks of timers, which call like others;
    the clear functions of timers come before `del_async_all`. -/
inductive AsyncMove
  | async
  | setClearfunc (async : Nat) (clearfunc : Bool)
  | destroy (async : Nat)
  | process
  | deleteAll
  | resume
  deriving DecidableEq, Repr

def asyncStep (asyncs : Asyncs) : AsyncMove → Except Fault Asyncs
  | .async => .ok asyncs.apeAsync
  | .setClearfunc async clearfunc => asyncs.apeAsyncSetclearfunc async clearfunc
  | .destroy async => asyncs.apeAsyncDestroy async
  | .process => asyncs.processAsync
  | .deleteAll => asyncs.delAsyncAll
  | .resume => asyncs.resume

end ZapeModel
