import Zape.Ape.Pool
import Zape.Machine.Bytes
import Zape.Machine.Loop

/-! `ape_socket.c`: what is written to a plain socket, and the jobs that wait until it can be written again. -/
namespace ZapeModel

open Machine

/-- `size_t` and `ssize_t`. -/
abbrev SizeT := BitVec 64

inductive Reply
  | accepted (count : Nat)
  | again
  | interrupted
  | failed
  deriving DecidableEq, Repr

inductive SendfileReply
  | sent
  | again
  | ended
  deriving DecidableEq, Repr

/-- What `ape_ssl_write` comes to: the whole packet was taken, or what `SSL_get_error` then says. -/
inductive SslReply
  | written
  | zeroReturn
  | wantWrite
  | wantRead
  | failed
  deriving DecidableEq, Repr

/-- What the system answers to its successive calls, `write` and `writev` being offered so many bytes. -/
structure Kernel where
  reply : Nat → Nat → Reply
  sendfile : Nat → SendfileReply := fun _ => .ended
  honest : ∀ call offered count, reply call offered = .accepted count →
    count ≤ offered ∧ count < 2 ^ 63 ∧ (0 < offered → 0 < count)

inductive SocketState
  | online
  | progress
  | pending
  | offline
  | shutdown
  deriving DecidableEq, Repr

inductive DataAutorelease
  | static
  | globalStatic
  | autorelease
  | own
  | copy
  deriving DecidableEq, Repr

/-- What `ptr.data` of a packet points to: the buffer that a call of `APE_socket_write` was given, or the copy of it. -/
inductive DataPointer
  | caller (write : Nat)
  | copy (write : Nat)
  deriving DecidableEq, Repr

/-- `ape_socket_packet_t`, with the bytes that `ptr.data` points to. -/
structure Packet where
  data : Option (List Byte) := none
  pointer : DataPointer := .caller 0
  len : SizeT := 0#64
  offset : SizeT := 0#64
  dataType : DataAutorelease := .static
  deriving Inhabited

/-- `ptr` of a job. -/
inductive JobPtr
  | null
  | data (list : PoolList Packet)
  | fd (fd : Nat)
  deriving Inhabited

abbrev Job := JobPtr

def apeSocketJobWritev : BitVec 32 := 0x02#32
def apeSocketJobSendfile : BitVec 32 := 0x04#32
def apeSocketJobShutdown : BitVec 32 := 0x08#32
def apeSocketJobActive : BitVec 32 := 0x10#32

def PoolNode.active (job : PoolNode Job) : Bool := job.flags &&& apeSocketJobActive != 0#32

structure ApeSocket where
  state : SocketState := .online
  wouldBlock : Bool := false
  needWrite : Bool := false
  jobs : PoolList Job := apeInitPoolList 2
  maxBufferMemoryMb : SizeT := 0#64
  currentBufferMemoryBytes : SizeT := 0#64

/-- What can be observed: the system calls, the calls of `ape_socket_queue_data`, and memory that is released. -/
inductive SocketEvent
  | write (offset length : Nat) (reply : Reply)
  | writev (chunks : List (List Byte)) (reply : Reply)
  | queued (suffix : List Byte)
  | sendfile (fd : Nat) (reply : SendfileReply)
  | sslWrite (data : List Byte) (reply : SslReply)
  | closeFile (fd : Nat)
  | free (pointer : DataPointer)
  | shutdown
  | destroy
  deriving DecidableEq, Repr

/-- `handed` is the number of the buffer that the running call of `APE_socket_write` was given. -/
structure World where
  socket : ApeSocket := {}
  totalMemoryBuffered : SizeT := 0#64
  calls : Nat := 0
  handed : Nat := 0
  out : List SocketEvent := []

def World.emit (world : World) (events : List SocketEvent) : World := { world with out := world.out ++ events }

def apeMin (left right : Int) : Int := if left > right then right else left

def apeSocketReleaseData (data : DataPointer) : DataAutorelease → List SocketEvent
  | .autorelease | .copy => [.free data]
  | .static | .globalStatic | .own => []

def apeSocketShutdownNow (world : World) : World :=
  match world.socket.state with
  | .online => { world with socket := { world.socket with state := .shutdown } }.emit [.shutdown]
  | .progress | .pending => { world with socket := { world.socket with state := .offline } }.emit [.destroy]
  | .offline | .shutdown => world

def apeSocketJobGetSlot (socket : ApeSocket) (type : BitVec 32) : Except Fault (ApeSocket × Nat) :=
  match socket.jobs.current with
  | none => .error .nullDereference
  | some jobs =>
    let flags := (socket.jobs.node jobs).flags
    if type = apeSocketJobWritev ∧ flags &&& apeSocketJobWritev ≠ 0#32 ∨ flags &&& apeSocketJobActive = 0#32 then
      .ok ({ socket with jobs := socket.jobs.setFlags jobs (flags ||| (apeSocketJobActive ||| type)) }, jobs)
    else
      let (list, next) :=
        if jobs = socket.jobs.queue then
          let (list, pool) := apeGrowPool socket.jobs 2
          (list, some pool)
        else (socket.jobs, (socket.jobs.node jobs).next)
      match next with
      | none => .error .nullDereference
      | some slot =>
        let flags := (list.node slot).flags ||| (apeSocketJobActive ||| type)
        .ok ({ socket with jobs := { list with current := some slot }.setFlags slot flags }, slot)

/-- The packet goes into the current slot, and the list is left with a spare one. -/
def pushPacket (list : PoolList Packet) (packet : Packet) : Except Fault (PoolList Packet) :=
  match list.current with
  | none => .error .nullDereference
  | some packets =>
    let filled := list.setContent packets packet
    let spare := if (filled.node packets).next = none then (apeGrowPool filled 8).1 else filled
    .ok { spare with current := (spare.node packets).next }

/-- The list that a `WRITEV` job points to, or a new one. -/
def packetQueue : JobPtr → Except Fault (PoolList Packet)
  | .null => .ok (apeInitPoolList 8)
  | .data list => .ok list
  | .fd _ => .error .wildPointer

def apeSocketQueueData (world : World) (data : List Byte) (offset : SizeT) (dataType : DataAutorelease) :
    Except Fault World :=
  let len : SizeT := BitVec.ofNat 64 data.length
  let dataType := if dataType = .static then .copy else dataType
  let pointer : DataPointer := if dataType = .copy then .copy world.handed else .caller world.handed
  match apeSocketJobGetSlot world.socket apeSocketJobWritev with
  | .error fault => .error fault
  | .ok (socket, job) =>
    match packetQueue (socket.jobs.node job).content with
    | .error fault => .error fault
    | .ok list =>
      match pushPacket list { data := some data, pointer, len, offset, dataType } with
      | .error fault => .error fault
      | .ok list =>
        let bytes := socket.currentBufferMemoryBytes + (len - offset)
        let queued : World :=
          { world with
            socket := { socket with jobs := socket.jobs.setContent job (.data list), currentBufferMemoryBytes := bytes }
            totalMemoryBuffered := world.totalMemoryBuffered + (len - offset) }.emit [.queued (data.drop offset.toNat)]
        .ok (if socket.maxBufferMemoryMb ≠ 0#64 ∧ (socket.maxBufferMemoryMb * 1024#64 * 1024#64).ult bytes then
          apeSocketShutdownNow queued else queued)

/-- The loop of `APE_socket_write` around `write`: `t_bytes` are done, and `r_bytes` are offered. -/
structure Writing where
  world : World
  tBytes : SizeT := 0#64
  rBytes : SizeT

/-- A size that is returned as an `int`. -/
def intOfSize (size : SizeT) : Int := (size.setWidth 32).toInt

section Write

variable (kernel : Kernel) (data : List Byte) (dataType : DataAutorelease)

/-- The end of `APE_socket_write`, with or without an error. -/
def writeReturn (world : World) (ioError : Bool) : World × Int :=
  let released := world.emit (apeSocketReleaseData (.caller world.handed) (if dataType = .copy then .own else dataType))
  if ioError then (apeSocketShutdownNow released, -1) else (released, 0)

def writeTurn (writing : Writing) : Turn Writing (Except Fault (World × Int)) :=
  if writing.tBytes.ult (BitVec.ofNat 64 data.length) then
    let reply := kernel.reply writing.world.calls writing.rBytes.toNat
    let called : World :=
      { writing.world with calls := writing.world.calls + 1 }.emit
        [.write writing.tBytes.toNat writing.rBytes.toNat reply]
    match reply with
    | .accepted n =>
      .again { world := called, tBytes := writing.tBytes + BitVec.ofNat 64 n,
               rBytes := writing.rBytes - BitVec.ofInt 64 (apeMin n 0) }
    | .again =>
      if writing.rBytes ≠ 0#64 then
        let blocked := { called with socket := { called.socket with wouldBlock := true } }
        .done ((apeSocketQueueData blocked data writing.tBytes dataType).map fun world =>
          (world, intOfSize writing.rBytes))
      else .done (.ok (writeReturn dataType called true))
    | .interrupted | .failed => .done (.ok (writeReturn dataType called true))
  else .done (.ok (writeReturn dataType writing.world false))

/-- `APE_socket_write` on a plain socket, with at most so many turns of its loop. -/
def apeSocketWrite (fuel : Nat) (world : World) : Option (Except Fault (World × Int)) :=
  let len : SizeT := BitVec.ofNat 64 data.length
  if world.socket.state ≠ .online ∨ len = 0#64 then
    some (.ok (world.emit (apeSocketReleaseData (.caller world.handed) (if dataType = .copy then .own else dataType)), -1))
  else
    match world.socket.jobs.head with
    | none => some (.error .nullDereference)
    | some head =>
      if world.socket.wouldBlock ∨ (world.socket.jobs.node head).active then
        some ((apeSocketQueueData world data 0#64 dataType).map fun world => (world, intOfSize len))
      else loop (writeTurn kernel data dataType) fuel { world, rBytes := len }

end Write

end ZapeModel
