import Zape.Ape.Api

/-! A client socket in `APE_loop_run`: its events, its callbacks and the timers that hold it. -/
namespace ZapeModel

open Machine

/-- `states.proto`. -/
inductive Protocol
  | tcp
  | udp
  deriving DecidableEq, Repr

/-- What `read` and `recvfrom` answer; no bytes are the end of the stream. -/
inductive ReadReply
  | bytes (data : List Byte)
  | again
  | interrupted
  | failed
  deriving DecidableEq, Repr

/-- The timers that are given a socket, by their callbacks: `ape_socket_connected`, `_ape_socket_destroy`,
    `ape_socket_free` and `ape_socket_shutdown_delay_cb`. -/
inductive SocketTimer
  | connected
  | destroy
  | free
  | delay
  deriving DecidableEq, Repr

/-- A timer in the list, and whether the running pass over the list still comes to it. -/
structure PendingTimer where
  timer : SocketTimer
  visit : Bool := false
  deriving DecidableEq, Repr

/-- What comes of `bind` and `connect`. -/
inductive Dialed
  | started
  | refused
  | unbound
  deriving DecidableEq, Repr

/-- What `ape_gethostbyname` does: it calls back, without an address if it knows none, or it has to wait. -/
inductive Lookup
  | answered (dialed : Option Dialed)
  | pending
  deriving DecidableEq, Repr

/-- A call of the application. One that may close the socket comes with what `on_disconnect` then calls. -/
inductive ConnectionCall
  | write (data : DataObject) (dataType : DataAutorelease)
  | sendfile (file : Option Nat)
  | shutdown (onDisconnect : List ConnectionCall)
  | shutdownNow (onDisconnect : List ConnectionCall)
  | shutdownDelay
  | connect (port : BitVec 16) (lookup : Lookup) (onDisconnect : List ConnectionCall)

structure SocketCallbacks where
  onConnected : Bool := true
  onRead : Bool := true
  onMessage : Bool := true
  onDrain : Bool := true
  onDisconnect : Bool := true

/-- What can be observed besides the calls that send: `leave` is `APE_socket_shutdown_now` taking the socket out of the
    `ONLINE` state, `close` is `ape_socket_close` taking effect, `created` a timer and the others that were there, `connect` a
    call of `APE_socket_connect` or an answered lookup with the state that it finds and the lookups that are still under way,
    `sendfile` a call of `APE_sendfile` and whether it queues the file although the socket would not block, and `touched` a
    callback that is given a released socket. -/
inductive ConnectionEvent
  | read (reply : ReadReply)
  | onRead (data : List Byte)
  | onMessage (data : List Byte)
  | onDrain
  | onConnected
  | onDisconnect
  | leave
  | close
  | closeFd
  | eventsDel
  | created (timer : SocketTimer) (others : List PendingTimer)
  | connect (state : SocketState) (lookups : Nat)
  | sendfile (unasked : Bool)
  | free
  | touched
  deriving DecidableEq, Repr

/-- `ape_socket`, with the timers and the lookups that hold it. `client` is the type that it gets by `connect` or `accept`,
    and `since` is how much had been sent or queued when `EVENT_WRITE` was dispatched for it the last time. -/
structure Connection where
  world : World := {}
  proto : Protocol := .tcp
  callbacks : SocketCallbacks := {}
  client : Bool := true
  delayTimer : Bool := false
  dnsState : Bool := false
  lookups : Nat := 0
  timers : List PendingTimer := []
  freed : Bool := false
  since : Nat := 0
  log : List ConnectionEvent := []

namespace Connection

def state (connection : Connection) : SocketState := connection.world.socket.state

def emit (connection : Connection) (events : List ConnectionEvent) : Connection :=
  { connection with log := connection.log ++ events }

def setState (connection : Connection) (state : SocketState) : Connection :=
  { connection with world := { connection.world with socket := { connection.world.socket with state } } }

/-- `timer_dispatch_async`, and `APE_timer_create` for the timer that delays. -/
def dispatchAsync (connection : Connection) (timer : SocketTimer) : Connection :=
  { connection with timers := { timer } :: connection.timers }.emit [.created timer connection.timers]

/-- `ape_socket_destroy_async`. -/
def destroyAsync (connection : Connection) : Connection :=
  if connection.state = .offline then connection else connection.dispatchAsync .destroy

/-- `ape_shutdown`. -/
def shut (connection : Connection) : Connection :=
  if connection.state ≠ .online then connection
  else
    { connection with world := connection.world.emit [.shutdown] }.setState .shutdown |>.destroyAsync

/-- The socket after a call that sends; where `ape_shutdown` was called on the way, its timer was created. -/
def follow (connection : Connection) (now : Bool) (world : World) : Connection :=
  let next := { connection with world }
  if connection.state = .online ∧ world.socket.state = .shutdown then
    (if now then next.emit [.leave] else next).destroyAsync
  else next

/-- `ape_socket_close` on a socket that is not `OFFLINE`. -/
def closing (connection : Connection) (onDisconnect : Connection → Except Stop Connection) : Except Stop Connection :=
  let invalidated :=
    if connection.dnsState then { connection with dnsState := false, lookups := connection.lookups - 1 } else connection
  let offline := (invalidated.setState .offline).emit [.close]
  let called := if connection.callbacks.onDisconnect then onDisconnect (offline.emit [.onDisconnect]) else .ok offline
  called.map (·.emit [.closeFd, .eventsDel])

/-- `ape_socket_destroy`. -/
def destroying (connection : Connection) (onDisconnect : Connection → Except Stop Connection) : Except Stop Connection :=
  if connection.state = .offline then .ok connection
  else
    let closed := { connection with world := connection.world.emit [.destroy] }.closing onDisconnect
    closed.map (·.dispatchAsync .free)

/-- `ape_socket_connect_ready_to_connect`. -/
def readyToConnect (connection : Connection) (dialed : Option Dialed)
    (onDisconnect : Connection → Except Stop Connection) : Except Stop Connection :=
  let connection := { connection with dnsState := false }
  match dialed with
  | none | some .refused => connection.destroying onDisconnect
  | some .unbound => .ok connection
  | some .started =>
    match connection.proto with
    | .tcp => .ok ({ connection with client := true }.setState .progress)
    | .udp => .ok (({ connection with client := true }.setState .online).dispatchAsync .connected)

/-- `APE_socket_connect`. -/
def connecting (connection : Connection) (port : BitVec 16) (lookup : Lookup)
    (onDisconnect : Connection → Except Stop Connection) : Except Stop Connection :=
  let connection := connection.emit [.connect connection.state connection.lookups]
  if port = 0#16 then connection.destroying onDisconnect
  else
    match lookup with
    | .pending => .ok { connection with dnsState := true, lookups := connection.lookups + 1 }
    | .answered dialed => connection.readyToConnect dialed onDisconnect

/-- `APE_sendfile` finds the head job `ACTIVE` although `WOULD_BLOCK` is clear. -/
def unasked (world : World) (file : Option Nat) : Bool :=
  world.socket.state = .online && file.isSome && !world.socket.wouldBlock &&
    match world.socket.jobs.head with
    | none => false
    | some head => (world.socket.jobs.node head).active

section Calls

variable (kernel : Kernel) (maxChunks fuel : Nat)

mutual

def perform (connection : Connection) : ConnectionCall → Except Stop Connection
  | .write data dataType =>
    (connection.world.performApi kernel maxChunks fuel (.socket (.write data dataType))).map (connection.follow true)
  | .sendfile file =>
    let asked := connection.emit [.sendfile (unasked connection.world file)]
    (connection.world.performApi kernel maxChunks fuel (.sendfile file)).map (asked.follow false)
  | .shutdown onDisconnect =>
    match connection.state with
    | .shutdown | .offline => .ok connection
    | .progress | .pending => connection.destroying fun connection => connection.performAll onDisconnect
    | .online => (connection.world.performApi kernel maxChunks fuel .shutdown).map (connection.follow false)
  | .shutdownNow onDisconnect =>
    match connection.state with
    | .shutdown | .offline => .ok connection
    | .progress | .pending => connection.destroying fun connection => connection.performAll onDisconnect
    | .online => .ok (connection.emit [.leave]).shut
  | .shutdownDelay =>
    .ok (if connection.delayTimer then connection else { connection with delayTimer := true }.dispatchAsync .delay)
  | .connect port lookup onDisconnect =>
    connection.connecting port lookup fun connection => connection.performAll onDisconnect

def performAll (connection : Connection) : List ConnectionCall → Except Stop Connection
  | [] => .ok connection
  | call :: calls => (connection.perform call).bind fun connection => connection.performAll calls

end

def callback (connection : Connection) (set : Bool) (event : ConnectionEvent) (calls : List ConnectionCall) :
    Except Stop Connection :=
  if set then (connection.emit [event]).performAll kernel maxChunks fuel calls else .ok connection

def apeSocketConnected (connection : Connection) (calls : List ConnectionCall) : Except Stop Connection :=
  connection.callback kernel maxChunks fuel connection.callbacks.onConnected .onConnected calls

def apeSocketDestroy (connection : Connection) (onDisconnect : List ConnectionCall) : Except Stop Connection :=
  connection.destroying fun connection => connection.performAll kernel maxChunks fuel onDisconnect

end Calls

end Connection

/-- An event that `events_poll` reports, what the calls that receive answer to it, and what the callbacks call. Behind
    the last of these answers the socket would block. -/
structure LoopEvent where
  readable : Bool := false
  writable : Bool := false
  reads : List ReadReply := []
  datagrams : List (ReadReply × List ConnectionCall) := []
  soError : Bool := false
  onRead : List ConnectionCall := []
  onDrain : List ConnectionCall := []
  onConnected : List ConnectionCall := []
  onDisconnect : List ConnectionCall := []

/-- What the loop around `read` leaves: the data, the answers, and the last of them. -/
structure Received where
  data : List Byte
  replies : List ReadReply
  last : ReadReply

/-- The loop of `ape_socket_read`. -/
def receive : List ReadReply → Received
  | [] => { data := [], replies := [.again], last := .again }
  | .interrupted :: replies =>
    let later := receive replies
    { later with replies := .interrupted :: later.replies }
  | .bytes (byte :: bytes) :: replies =>
    let later := receive replies
    { later with data := byte :: bytes ++ later.data, replies := .bytes (byte :: bytes) :: later.replies }
  | reply :: _ => { data := [], replies := [reply], last := reply }

namespace Connection

section Loop

variable (kernel : Kernel) (maxChunks fuel : Nat)

/-- `ape_socket_read`, which returns `-1` when the socket was destroyed. -/
def apeSocketRead (connection : Connection) (event : LoopEvent) : Except Stop (Connection × Int) :=
  if connection.state ≠ .online then .ok (connection, 0)
  else
    let received := receive event.reads
    let connection := connection.emit (received.replies.map .read)
    let called :=
      if received.data ≠ [] ∧ connection.state ≠ .shutdown then
        connection.callback kernel maxChunks fuel connection.callbacks.onRead (.onRead received.data) event.onRead
      else .ok connection
    called.bind fun connection =>
      if (received.last = .bytes [] ∨ received.last = .failed) ∧ connection.state ≠ .shutdown then
        (connection.apeSocketDestroy kernel maxChunks fuel event.onDisconnect).map fun connection => (connection, -1)
      else .ok (connection, 0)

def apeSocketReadUdp (connection : Connection) : List (ReadReply × List ConnectionCall) → Except Stop Connection
  | [] => .ok (connection.emit [.read .again])
  | (.bytes (byte :: bytes), calls) :: datagrams =>
    ((connection.emit [.read (.bytes (byte :: bytes))]).callback kernel maxChunks fuel connection.callbacks.onMessage
      (.onMessage (byte :: bytes)) calls).bind fun connection => connection.apeSocketReadUdp datagrams
  | (reply, _) :: _ => .ok (connection.emit [.read reply])

/-- Whether a call of `writev` failed since. -/
def failedSince (before after : World) : Bool :=
  (after.out.drop before.out.length).any fun
    | .writev _ .failed => true
    | _ => false

/-- `ape_socket_do_jobs`, and `on_drain` if it did one job. -/
def doJobs (connection : Connection) (onDrain : List ConnectionCall) : Except Stop Connection :=
  (Stop.outcome (apeSocketDoJobs kernel maxChunks fuel connection.world)).bind fun (world, njobsdone) =>
    let next := connection.follow (failedSince connection.world world) world
    if njobsdone = 1 then next.callback kernel maxChunks fuel next.callbacks.onDrain .onDrain onDrain else .ok next

/-- What `APE_loop_run` does with `EVENT_WRITE` after the socket was read. -/
def writable (connection : Connection) (event : LoopEvent) : Except Stop Connection :=
  if connection.state = .online ∧ connection.world.socket.wouldBlock = false then
    connection.doJobs kernel maxChunks fuel event.onDrain
  else if connection.state = .progress then
    if event.soError then connection.apeSocketDestroy kernel maxChunks fuel event.onDisconnect
    else (connection.setState .online).apeSocketConnected kernel maxChunks fuel event.onConnected
  else .ok connection

/-- `WOULD_BLOCK` is cleared before the socket is read. -/
def unblock (connection : Connection) : Connection :=
  { connection with
    world := { connection.world with socket := { connection.world.socket with wouldBlock := false } }
    since := connection.world.out.length }

/-- What `APE_loop_run` does with an event of a socket of the `CLIENT` type. -/
def dispatch (connection : Connection) (event : LoopEvent) : Except Stop Connection :=
  let connection := if event.writable then connection.unblock else connection
  let reading : Except Stop (Connection × Int) :=
    if event.readable then
      match connection.proto with
      | .tcp => connection.apeSocketRead kernel maxChunks fuel event
      | .udp => (connection.apeSocketReadUdp kernel maxChunks fuel event.datagrams).map fun connection => (connection, 0)
    else .ok (connection, 0)
  reading.bind fun (connection, ret) =>
    if ret ≠ -1 ∧ event.writable then connection.writable kernel maxChunks fuel event else .ok connection

def apeSocketFree (connection : Connection) : Connection :=
  let timers :=
    if connection.delayTimer then connection.timers.filter (·.timer ≠ .delay) else connection.timers
  { connection with freed := true, timers }.emit [.free]

/-- `_ape_socket_destroy`. -/
def destroyNow (connection : Connection) (onDisconnect : List ConnectionCall) : Except Stop Connection :=
  if connection.state = .offline then .ok connection
  else
    (connection.closing fun connection => connection.performAll kernel maxChunks fuel onDisconnect).map apeSocketFree

/-- The callback of a timer. -/
def runTimer (connection : Connection) (timer : SocketTimer) (calls : List ConnectionCall) : Except Stop Connection :=
  if connection.freed then .ok (connection.emit [.touched])
  else
    match timer with
    | .connected => connection.apeSocketConnected kernel maxChunks fuel calls
    | .destroy => connection.destroyNow kernel maxChunks fuel calls
    | .free => .ok connection.apeSocketFree
    | .delay =>
      (connection.perform kernel maxChunks fuel (.shutdown calls)).map fun connection =>
        { connection with delayTimer := false }

end Loop

end Connection

/-- The next timer of the pass is not due. -/
def skipFirst : List PendingTimer → List PendingTimer
  | [] => []
  | pending :: timers => if pending.visit then { pending with visit := false } :: timers else pending :: skipFirst timers

/-- What happens to the socket: something else calls, an event is dispatched, a lookup is answered, or `ape_timers_process`
    starts or comes to the next of the timers. All of them return 0, so that each runs once. -/
inductive ConnectionStep
  | call (call : ConnectionCall)
  | event (event : LoopEvent)
  | resolved (dialed : Option Dialed) (onDisconnect : List ConnectionCall)
  | process
  | timer (due : Bool) (calls : List ConnectionCall)

namespace Connection

/-- `ape_timers_process` is not running. -/
def idle (connection : Connection) : Bool := connection.timers.all (!·.visit)

/-- Once the socket was released nothing calls for it any more but what still holds it. -/
def step (kernel : Kernel) (maxChunks fuel : Nat) (connection : Connection) : ConnectionStep → Except Stop Connection
  | .call call => if connection.freed then .ok connection else connection.perform kernel maxChunks fuel call
  | .event event =>
    if connection.freed ∨ connection.client = false ∨ connection.idle = false then .ok connection
    else connection.dispatch kernel maxChunks fuel event
  | .resolved dialed onDisconnect =>
    if connection.lookups = 0 ∨ connection.idle = false then .ok connection
    else
      let answered :=
        { connection with lookups := connection.lookups - 1 }.emit [.connect connection.state (connection.lookups - 1)]
      if connection.freed then .ok (answered.emit [.touched])
      else answered.readyToConnect dialed fun connection => connection.performAll kernel maxChunks fuel onDisconnect
  | .process =>
    .ok (if connection.idle then { connection with timers := connection.timers.map ({ · with visit := true }) }
      else connection)
  | .timer due calls =>
    match connection.timers.find? (·.visit) with
    | none => .ok connection
    | some pending =>
      if pending.timer = .delay ∧ due = false then .ok { connection with timers := skipFirst connection.timers }
      else
        (connection.runTimer kernel maxChunks fuel pending.timer calls).map fun connection =>
          { connection with timers := connection.timers.eraseP (·.visit) }

end Connection

end ZapeModel
