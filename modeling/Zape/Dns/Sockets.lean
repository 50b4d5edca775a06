import Zape.Events.Epoll
import Zape.Machine.Runs

/-! `ape_dns.c`: the descriptors that `c-ares` waits on. -/
namespace ZapeModel

/-- `struct _ares_sockets`. `type` is `APE_EVENT_DELEGATE` and `on_io` is `ares_io` once the entry was used. -/
structure AresSocket where
  fd : Int := 0
  delegate : Bool := false
  deriving DecidableEq, Repr

/-- `ares_process_fd` gets a descriptor to read from and one to write to, or `ARES_SOCKET_BAD`. -/
def aresIo (fd : Int) (ev : BitVec 32) : Option Int × Option Int :=
  (if ev &&& eventRead ≠ 0#32 then some fd else none, if ev &&& eventWrite ≠ 0#32 then some fd else none)

/-- `read ? EVENT_READ : (0 | write) ? EVENT_WRITE : 0`, as the operators bind. -/
def listenfor (read write : Bool) : BitVec 32 := if read then eventRead else if write then eventWrite else 0#32

/-- Where the loop over the list ends: at the entry of the descriptor, or behind the last one with the index in `f`. -/
inductive AresFound
  | here (index : Nat)
  | nowhere (f : Nat)
  deriving DecidableEq, Repr

def findAres (s : Int) (i f : Nat) : List AresSocket → AresFound
  | [] => .nowhere f
  | socket :: sockets =>
    if f = 0 ∧ socket.fd = 0 then findAres s (i + 1) i sockets
    else if socket.fd = s then .here i
    else findAres s (i + 1) f sockets

/-- `dns.sockets` and `events` of `ape_global`. -/
structure AresSockets where
  list : List AresSocket := List.replicate 32 {}
  events : Fdevent := {}

/-- `c-ares` calls back about a descriptor; `accepted` is what the kernel answers if it is asked to watch it. -/
structure AresCall where
  s : Int
  read : Bool
  write : Bool
  accepted : Bool := true
  deriving DecidableEq, Repr

def aresSocketCb (sockets : AresSockets) (call : AresCall) : AresSockets :=
  let { list, events } := sockets
  let { s, read, write, accepted } := call
  match findAres s 0 0 list with
  | .here i =>
    if listenfor read write = 0#32 then { list := list.modify i ({ · with fd := 0 }), events := events.eventsDel.close s }
    else { list, events := (events.eventsMod s (.delegate i) (listenfor read write ||| eventLevel) accepted).1 }
  | .nowhere f =>
    { list := list.set f { fd := s, delegate := true }
      events := (events.eventsAdd s (.delegate f) (listenfor read write ||| eventLevel) accepted).1 }

/-- What `APE_loop_run` does with an event that `epoll_wait` reports of an entry. -/
def dispatchDelegate (list : List AresSocket) (slot : Nat) (events : BitVec 32) : Option Int × Option Int :=
  match list[slot]? with
  | none => (none, none)
  | some socket => if socket.delegate then aresIo socket.fd (eventEpollRevent events) else (none, none)

/-- What `c-ares` asks for with a call: to read, and to write. -/
abbrev Directions := Bool × Bool

/-- A run of calls, with the descriptors that are open and what was asked for each of them the last time. -/
structure AresRun where
  sockets : AresSockets := {}
  opened : List (Int × Directions) := []

namespace AresRun

def isOpen (run : AresRun) (s : Int) : Bool := run.opened.any (·.1 = s)

/-- `c-ares` calls back about positive descriptors, and closes one only if it is open. -/
def step (run : AresRun) (call : AresCall) : Except Fault AresRun :=
  let others := run.opened.filter (·.1 ≠ call.s)
  if call.s ≤ 0 then .ok run
  else if call.read = false ∧ call.write = false then
    if run.isOpen call.s then .ok { sockets := aresSocketCb run.sockets call, opened := others } else .ok run
  else .ok { sockets := aresSocketCb run.sockets call, opened := (call.s, call.read, call.write) :: others }

end AresRun

end ZapeModel
