import Zape.Ape.Connection
import Zape.Dns.Sockets

/-! The sockets of one `ape_global`: `APE_socket_new`, `APE_socket_listen`, `APE_socket_connect` and what closes them, with
    the lookups and the timers that hold them, and the functions that wait for a callback or for `c-ares` to return. -/
namespace ZapeModel

/-- `notNow` is a call that cannot be made in the state; the others are accesses that the code should not make. -/
inductive ApeFault
  | notNow
  | freedSocket
  | calledFreed
  | freedQuery
  | nullClient
  deriving DecidableEq, Repr

inductive SocketProto
  | tcp
  | udp
  | ssl
  | unix
  deriving DecidableEq, Repr

inductive SocketType
  | unknown
  | server
  | client
  deriving DecidableEq, Repr

/-- `ape_socket_callbacks`, with the functions by their numbers. -/
structure CallbackFunctions where
  onRead : Option Nat := none
  onDisconnect : Option Nat := none
  onConnect : Option Nat := none
  onConnected : Option Nat := none
  onMessage : Option Nat := none
  onDrain : Option Nat := none
  arg : Option Nat := none
  deriving DecidableEq, Repr

/-- `ape_socket`, and whether it was freed. -/
structure NetSocket where
  fd : Int
  proto : SocketProto
  type : SocketType := .unknown
  state : SocketState := .pending
  callbacks : CallbackFunctions := {}
  dnsState : Option Nat := none
  remotePort : BitVec 16 := 0#16
  localPort : BitVec 16 := 0#16
  parent : Option Nat := none
  freed : Bool := false
  deriving DecidableEq, Repr

/-- `struct _ape_dns_cb_argv`, and whether it was freed. -/
structure DnsQuery where
  arg : Nat
  invalidate : Bool := false
  done : Bool := false
  freed : Bool := false
  deriving DecidableEq, Repr

/-- What `timer_dispatch_async` is called with. -/
inductive ApeAsync
  | socketFree (i : Nat)
  | socketDestroy (i : Nat)
  | socketConnected (i : Nat)
  | paramsFree (q : Nat)
  deriving DecidableEq, Repr

/-- What `accept` returns: a descriptor, with what `socket`, `setnonblocking` and the poller answer if they are asked about
    it, or an error. -/
inductive AcceptResult
  | descriptor (fd : Int) (opened : Option Int) (nonblocking accepted : Bool)
  | eintr
  | econnaborted
  deriving DecidableEq, Repr

/-- A function that waits: a callback of the application, the rest of `ape_socket_close` and of its caller, which frees the
    socket `now` or by a timer, the rest of `ares_gethostbyname_cb`, `ares_gethostbyname` within `APE_socket_connect`, the rest
    of `APE_socket_connect` for an address, and the loop of `ape_socket_accept` with what `accept` will return before
    `EAGAIN`. -/
inductive ApeFrame
  | callback
  | close (i : Nat) (now : Bool)
  | answer (q : Nat)
  | ask (q i : Nat)
  | connect (i : Nat)
  | accept (i : Nat) (results : List AcceptResult)
  deriving DecidableEq, Repr

/-- What can be observed: `close` is the descriptor of a socket passed to `close`, `offline` is `ape_socket_close` taking
    effect, with `on_disconnect` set or not, `registered` a call of `events_add` and whether it succeeds, `dialed` a call of
    `ape_socket_connect_ready_to_connect` with the state that it finds, `called` the callback of a lookup, `accepted` a
    descriptor from `accept` and its client, and `drained` that `accept` reported `EAGAIN`. -/
inductive ApeEvent
  | close (i : Nat)
  | offline (i : Nat) (reported : Bool)
  | onDisconnect (i : Nat)
  | registered (i : Nat) (added : Bool)
  | listening (i : Nat)
  | dialed (i : Nat) (state : SocketState)
  | established (i : Nat)
  | onConnected (i : Nat)
  | accepted (i : Nat) (fd : Int) (client : Nat)
  | onConnect (i client : Nat)
  | drained (i : Nat)
  | called (q : Nat)
  | paramsFree (q : Nat)
  deriving DecidableEq, Repr

/-- What `connect` reports: success or `EINPROGRESS`, `EADDRNOTAVAIL`, or another error. -/
inductive ConnectReply
  | started
  | unavailable
  | failed
  deriving DecidableEq, Repr

/-- What `bind` and `connect` answer in each try, and the poller in the end. -/
structure Dialing where
  bound : Nat → Bool := fun _ => true
  reply : Nat → ConnectReply := fun _ => .started
  accepted : Bool := true

/-- The tries that are left, and the number of the next one. -/
def Dialing.retry (dialing : Dialing) (localPort : BitVec 16) : Nat → Nat → Dialed
  | 0, _ => .refused
  | left + 1, ntry =>
    if localPort ≠ 0#16 ∧ dialing.bound ntry = false then .unbound
    else
      match dialing.reply ntry with
      | .started => .started
      | .unavailable => dialing.retry localPort left (ntry + 1)
      | .failed => .refused

def Dialing.dial (dialing : Dialing) (localPort : BitVec 16) : Dialed := dialing.retry localPort 10 0

structure Ape where
  ares : AresRun := {}
  sockets : List NetSocket := []
  queries : List DnsQuery := []
  timers : List ApeAsync := []
  frames : List ApeFrame := []
  log : List ApeEvent := []

namespace Ape

section Parts

variable (ape : Ape)

def events : Fdevent := ape.ares.sockets.events

def withEvents (events : Fdevent) : Ape :=
  { ape with ares := { ape.ares with sockets := { ape.ares.sockets with events } } }

def emit (events : List ApeEvent) : Ape := { ape with log := ape.log ++ events }

def enter (frames : List ApeFrame) : Ape := { ape with frames := frames ++ ape.frames }

def change (i : Nat) (f : NetSocket → NetSocket) : Ape := { ape with sockets := ape.sockets.modify i f }

/-- `timer_dispatch_async`. -/
def dispatch (async : ApeAsync) : Ape := { ape with timers := async :: ape.timers }

def socket (i : Nat) : Except ApeFault NetSocket :=
  match ape.sockets[i]? with
  | none => .error .notNow
  | some socket => if socket.freed then .error .freedSocket else .ok socket

def paramsFree (q : Nat) : Ape :=
  { ape with queries := ape.queries.modify q ({ · with freed := true }), log := ape.log ++ [.paramsFree q] }

/-- The loop has called nothing that waits. -/
def idle : Bool := ape.frames.isEmpty

/-- The application runs in a callback, or in one of the timers and handlers that are not part of this model. -/
def userRuns : Bool := ape.frames.head?.all (· = .callback)

/-- `c-ares` runs in `ares_process_fd`, or in `ares_gethostbyname`. -/
def aresRuns : Bool :=
  ape.frames.head?.all fun
    | .ask _ _ => true
    | _ => false

/-- The application does not use a socket that is freed. -/
def asUser (i : Nat) (call : NetSocket → Except ApeFault Ape) : Except ApeFault Ape :=
  match ape.sockets[i]? with
  | none => .error .notNow
  | some socket => if ape.userRuns = true ∧ socket.freed = false then call socket else .error .notNow

/-- `events_add` of a socket, whose result no caller looks at. -/
def register (i : Nat) (fd : Int) (accepted : Bool) : Ape :=
  let (events, result) := ape.events.eventsAdd fd (.socket i) (eventRead ||| eventWrite) accepted
  (ape.withEvents events).emit [.registered i (result = 1)]

end Parts

section Closing

variable (ape : Ape) (i : Nat)

def apeDnsInvalidate : Option Nat → Except ApeFault Ape
  | none => .ok ape
  | some q =>
    match ape.queries[q]? with
    | none => .error .freedQuery
    | some query =>
      if query.freed then .error .freedQuery
      else .ok { ape with queries := ape.queries.modify q ({ · with invalidate := true }) }

/-- `ape_socket_close` up to `on_disconnect`, for a caller that frees the socket `now` or by a timer. -/
def apeSocketClose (now : Bool) : Except ApeFault Ape :=
  (ape.socket i).bind fun socket =>
    if socket.state = .offline then .ok ape
    else
      (ape.apeDnsInvalidate socket.dnsState).map fun ape =>
        let ape := ape.change i ({ · with state := .offline })
        if socket.callbacks.onDisconnect.isSome then
          (ape.emit [.offline i true, .onDisconnect i]).enter [.callback, .close i now]
        else (ape.emit [.offline i false]).enter [.close i now]

/-- The rest of `ape_socket_close`, and what its caller does then. -/
def closed (now : Bool) : Except ApeFault Ape :=
  (ape.socket i).map fun socket =>
    let ape := (ape.emit [.close i]).withEvents (ape.events.close socket.fd).eventsDel
    if now then ape.change i ({ · with freed := true }) else ape.dispatch (.socketFree i)

def apeShutdown : Except ApeFault Ape :=
  (ape.socket i).bind fun socket =>
    if socket.state ≠ .online then .ok ape
    else
      let ape := ape.change i ({ · with state := .shutdown })
      if socket.type = .server then ape.apeSocketClose i false else .ok (ape.dispatch (.socketDestroy i))

/-- `waits`: the socket would block or has a job, so that the shutdown becomes a job. -/
def apeSocketShutdown (waits : Bool) : Except ApeFault Ape :=
  (ape.socket i).bind fun socket =>
    match socket.state with
    | .shutdown => .ok ape
    | .progress => ape.apeSocketClose i false
    | .pending => ape.apeSocketClose i false
    | .offline => .ok ape
    | .online => if waits then .ok ape else ape.apeShutdown i

end Closing

section Opening

variable (ape : Ape)

/-- `setnonblocking` and `socket` may fail; `socket` is only called where no descriptor is given. -/
def apeSocketNew (proto : SocketProto) (from_ : Int) (opened : Option Int) (nonblocking : Bool) : Option NetSocket :=
  let sock := if from_ = 0 then opened else some from_
  if nonblocking then sock.map fun fd => { fd, proto } else none

/-- `bind` and `listen` may fail, and the poller may refuse. -/
def apeSocketListen (i : Nat) (socket : NetSocket) (port : BitVec 16) (bound listening accepted : Bool) : Ape :=
  let stream := socket.proto = .tcp ∨ socket.proto = .ssl
  if port = 0#16 then ape
  else if bound = false ∨ stream ∧ listening = false then
    (ape.emit [.close i]).withEvents (ape.events.close socket.fd)
  else
    let ape := ape.change i fun socket => { socket with type := .server, state := .online, localPort := port }
    (ape.emit [.listening i]).register i socket.fd accepted

/-- Without what `bind` and `connect` answer if the name was not found. -/
def readyToConnect (i : Nat) (dialing : Option Dialing) : Except ApeFault Ape :=
  (ape.socket i).bind fun socket =>
    let ape := (ape.emit [.dialed i socket.state]).change i ({ · with dnsState := none })
    match dialing with
    | none => ape.apeSocketClose i false
    | some dialing =>
      match dialing.dial socket.localPort with
      | .unbound => .ok ape
      | .refused => ape.apeSocketClose i false
      | .started =>
        let state := if socket.proto = .udp then .online else .progress
        let ape := (ape.change i ({ · with type := .client, state })).register i socket.fd dialing.accepted
        .ok (if socket.proto = .udp then ape.dispatch (.socketConnected i) else ape)

/-- An address is `numeric`; for a name, `ape_gethostbyname` asks `c-ares`. -/
def apeSocketConnect (i : Nat) (socket : NetSocket) (port localport : BitVec 16) (numeric : Bool) (dialing : Dialing) :
    Except ApeFault Ape :=
  if port = 0#16 then ape.apeSocketClose i false
  else
    let ape := ape.change i ({ · with remotePort := port, localPort := localport })
    if socket.proto = .unix then ape.readyToConnect i (some dialing)
    else if numeric then (ape.enter [.connect i]).readyToConnect i (some dialing)
    else
      let q := ape.queries.length
      let ape : Ape := { ape with queries := ape.queries ++ [{ arg := i }] }
      .ok (ape.enter [.ask q i])

/-- `c-ares` calls back once for each query. -/
def aresGethostbynameCb (q : Nat) (dialing : Option Dialing) : Except ApeFault Ape :=
  match ape.queries[q]? with
  | none => .error .notNow
  | some params =>
    if params.done then .error .notNow
    else
      let ape : Ape := { ape with queries := ape.queries.modify q ({ · with done := true }) }
      if params.invalidate then .ok (ape.paramsFree q)
      else if (ape.sockets[params.arg]?.all (·.freed)) then .error .calledFreed
      else ((ape.emit [.called q]).enter [.answer q]).readyToConnect params.arg dialing

end Opening

section Waiting

variable (ape : Ape)

/-- One turn of the loop of `ape_socket_accept`. It ends at `EAGAIN`, or at any other error than `EINTR`. -/
def acceptTurn (i : Nat) : List AcceptResult → Except ApeFault Ape
  | [] => .ok (ape.emit [.drained i])
  | .eintr :: results => .ok (ape.enter [.accept i results])
  | .econnaborted :: _ => .ok ape
  | .descriptor fd opened nonblocking accepted :: results =>
    (ape.socket i).bind fun socket =>
      match apeSocketNew socket.proto fd opened nonblocking with
      | none => .error .nullClient
      | some new =>
        let client := ape.sockets.length
        let new := { new with callbacks := socket.callbacks, parent := some i, state := .online, type := .client }
        let ape : Ape := { ape with sockets := ape.sockets ++ [new] }
        let ape := (ape.emit [.accepted i fd client]).register client new.fd accepted
        .ok (if socket.callbacks.onConnect.isSome then
            (ape.emit [.onConnect i client]).enter [.callback, .accept i results]
          else ape.enter [.accept i results])

/-- The function on top goes on. -/
def resume : Except ApeFault Ape :=
  match ape.frames with
  | [] => .error .notNow
  | frame :: frames =>
    let ape := { ape with frames }
    match frame with
    | .callback => .ok ape
    | .close i now => ape.closed i now
    | .answer q =>
      if ape.queries[q]?.all (·.freed) then .error .freedQuery else .ok (ape.dispatch (.paramsFree q))
    | .ask q i =>
      match ape.queries[q]? with
      | none => .error .freedQuery
      | some cb =>
        if cb.freed then .error .freedQuery
        else (ape.socket i).map fun _ => ape.change i ({ · with dnsState := if cb.done then none else some q })
    | .connect i => (ape.socket i).map fun _ => ape.change i ({ · with dnsState := none })
    | .accept i results => ape.acceptTurn i results

def runAsync : ApeAsync → Except ApeFault Ape
  | .socketFree i => (ape.socket i).map fun _ => ape.change i ({ · with freed := true })
  | .socketDestroy i => ape.apeSocketClose i true
  | .socketConnected i =>
    (ape.socket i).map fun socket =>
      if socket.callbacks.onConnected.isSome then (ape.emit [.onConnected i]).enter [.callback] else ape
  | .paramsFree q =>
    if ape.queries[q]?.all (·.freed) then .error .freedQuery
    else .ok (ape.paramsFree q)

/-- A timer that is due. -/
def timerPass (k : Nat) : Except ApeFault Ape :=
  match ape.timers[k]? with
  | none => .error .notNow
  | some async => runAsync { ape with timers := ape.timers.eraseIdx k } async

/-- A connection that is under way becomes writable. -/
def established (i : Nat) (serror : Bool) : Except ApeFault Ape :=
  (ape.socket i).bind fun socket =>
    if socket.type ≠ .client ∨ socket.state ≠ .progress then .error .notNow
    else if serror then ape.apeSocketClose i false
    else
      let ape := (ape.change i ({ · with state := .online })).emit [.established i]
      .ok (if socket.callbacks.onConnected.isSome then (ape.emit [.onConnected i]).enter [.callback] else ape)

/-- `ape_socket_read` comes to the end of the stream, or fails. -/
def ended (i : Nat) : Except ApeFault Ape :=
  (ape.socket i).bind fun socket =>
    if socket.type ≠ .client ∨ socket.proto = .udp ∨ socket.state = .shutdown then .error .notNow
    else ape.apeSocketClose i false

/-- A listening socket becomes readable. -/
def acceptable (i : Nat) (results : List AcceptResult) : Except ApeFault Ape :=
  (ape.socket i).bind fun socket =>
    if socket.type = .server ∧ (socket.proto = .tcp ∨ socket.proto = .ssl) then .ok (ape.enter [.accept i results])
    else .error .notNow

end Waiting

end Ape

/-- Calls of the application, of `c-ares`, and what the loop and the timers do. -/
inductive ApeCall
  | new (proto : SocketProto) (from_ : Int) (opened : Option Int) (nonblocking : Bool)
  | setCallbacks (i : Nat) (callbacks : CallbackFunctions)
  | listen (i : Nat) (port : BitVec 16) (bound listening accepted : Bool)
  | connect (i : Nat) (port localport : BitVec 16) (numeric : Bool) (dialing : Dialing)
  | shutdown (i : Nat) (waits : Bool)
  | shutdownNow (i : Nat)
  | resolved (q : Nat) (dialing : Option Dialing)
  | ares (call : AresCall)
  | established (i : Nat) (serror : Bool)
  | ended (i : Nat)
  | acceptable (i : Nat) (results : List AcceptResult)
  | timer (k : Nat)
  | resume

def Ape.step (ape : Ape) : ApeCall → Except ApeFault Ape
  | .new proto from_ opened nonblocking =>
    if ape.userRuns then .ok { ape with sockets := ape.sockets ++ (Ape.apeSocketNew proto from_ opened nonblocking).toList }
    else .error .notNow
  | .setCallbacks i callbacks => ape.asUser i fun _ => .ok (ape.change i ({ · with callbacks }))
  | .listen i port bound listening accepted =>
    ape.asUser i fun socket => .ok (ape.apeSocketListen i socket port bound listening accepted)
  | .connect i port localport numeric dialing =>
    ape.asUser i fun socket => ape.apeSocketConnect i socket port localport numeric dialing
  | .shutdown i waits => ape.asUser i fun _ => ape.apeSocketShutdown i waits
  | .shutdownNow i => ape.asUser i fun _ => ape.apeSocketShutdown i false
  | .resolved q dialing => if ape.aresRuns then ape.aresGethostbynameCb q dialing else .error .notNow
  | .ares call =>
    if ape.aresRuns then
      match ape.ares.step call with
      | .error _ => .error .notNow
      | .ok ares => .ok { ape with ares }
    else .error .notNow
  | .established i serror => if ape.idle then ape.established i serror else .error .notNow
  | .ended i => if ape.idle then ape.ended i else .error .notNow
  | .acceptable i results => if ape.idle then ape.acceptable i results else .error .notNow
  | .timer k => if ape.idle then ape.timerPass k else .error .notNow
  | .resume => ape.resume

end ZapeModel
