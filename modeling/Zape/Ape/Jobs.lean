import Zape.Ape.Socket

/-! `ape_socket_do_jobs` on a plain socket. -/
namespace ZapeModel

open Machine

/-- The places in `ape_socket_do_jobs` that it can come back to, with the local variables that matter there. -/
inductive JobsLabel
  | job
  | rewrite (job : Nat) (plist : PoolList Packet) (chunks : List (List Byte))
  | consume (job : Nat) (plist : PoolList Packet) (n : SizeT)
  | sendfile (job : Nat) (fd : Nat)

structure DoingJobs where
  world : World
  njobsdone : Nat := 0
  label : JobsLabel := .job

/-- What the packet still has to send. -/
def Packet.rest (packet : Packet) (data : List Byte) : List Byte :=
  (data.drop packet.offset.toNat).take (packet.len - packet.offset).toNat

/-- The loop at `chunk`, from a packet on. -/
def gatherChunks (plist : PoolList Packet) : Nat → Option Nat → List (List Byte)
  | 0, _ => []
  | _, none => []
  | maxChunks + 1, some address =>
    let packet := (plist.node address).content
    match packet.data with
    | none => []
    | some data => packet.rest data :: gatherChunks plist maxChunks (plist.node address).next

section Turns

variable (kernel : Kernel) (maxChunks : Nat)

abbrev JobsTurn := Turn DoingJobs (Except Fault (World × Int))

def storeList (world : World) (job : Nat) (plist : PoolList Packet) : World :=
  { world with socket := { world.socket with jobs := world.socket.jobs.setContent job (.data plist) } }

/-- The end of a job: it is not active any more, and its slot moves behind the current one. -/
def finishJob (world : World) (njobsdone : Nat) (job : Nat) : JobsTurn :=
  let jobs := world.socket.jobs
  let jobs := jobs.setFlags job ((jobs.node job).flags &&& ~~~apeSocketJobActive)
  match apePoolHeadToCurrent jobs with
  | .error fault => .done (.error fault)
  | .ok (jobs, _) =>
    .again { world := { world with socket := { world.socket with jobs } }, njobsdone := njobsdone + 1 }

theorem finishJob_ok {world : World} {njobsdone job : Nat} {moved : PoolList Job} {first : Option Nat}
    (ended : apePoolHeadToCurrent (world.socket.jobs.setFlags job
      ((world.socket.jobs.node job).flags &&& ~~~apeSocketJobActive)) = .ok (moved, first)) :
    finishJob world njobsdone job =
      .again { world := { world with socket := { world.socket with jobs := moved } }, njobsdone := njobsdone + 1 } := by
  simp only [finishJob, ended]

/-- What the loop over the jobs does with its head. -/
def jobTurn (world : World) (njobsdone : Nat) : JobsTurn :=
  match world.socket.jobs.head with
  | none => .done (.ok (world, njobsdone))
  | some job =>
    let node := world.socket.jobs.node job
    if !node.active then .done (.ok (world, njobsdone))
    else
      let type := node.flags &&& ~~~(apePoolAllFlags ||| apeSocketJobActive)
      if type = apeSocketJobWritev then
        match node.content with
        | .null => .done (.error .nullDereference)
        | .fd _ => .done (.error .wildPointer)
        | .data plist =>
          .again { world, njobsdone, label := .rewrite job plist (gatherChunks plist maxChunks plist.head) }
      else if type = apeSocketJobSendfile then
        match node.content with
        | .fd fd => .again { world, njobsdone, label := .sendfile job fd }
        | _ => .done (.error .wildPointer)
      else if type = apeSocketJobShutdown then
        let world :=
          match world.socket.state with
          | .online => { world with socket := { world.socket with state := .shutdown } }.emit [.shutdown]
          | _ => world
        .done (.ok (world, -1))
      else finishJob world njobsdone job

/-- After the packets were gone through: once more from `chunk`, or the end of the job. -/
def afterPackets (world : World) (njobsdone : Nat) (job : Nat) (plist : PoolList Packet) : JobsTurn :=
  match plist.head with
  | none => .done (.error .nullDereference)
  | some packet =>
    if (plist.node packet).content.data = none then finishJob (storeList world job plist) njobsdone job
    else .again { world, njobsdone, label := .rewrite job plist (gatherChunks plist maxChunks plist.head) }

def rewriteTurn (world : World) (njobsdone : Nat) (job : Nat) (plist : PoolList Packet)
    (chunks : List (List Byte)) : JobsTurn :=
  let reply := kernel.reply world.calls chunks.flatten.length
  let called := { world with calls := world.calls + 1 }.emit [.writev chunks reply]
  match reply with
  | .again =>
    let stored := storeList called job plist
    .done (.ok ({ stored with socket := { stored.socket with wouldBlock := true } }, 0))
  | .interrupted => .again { world := called, njobsdone, label := .rewrite job plist chunks }
  | .failed => .done (.ok (apeSocketShutdownNow (storeList called job plist), -1))
  | .accepted count =>
    let n : SizeT := BitVec.ofNat 64 count
    let bytes := called.socket.currentBufferMemoryBytes - n
    let world :=
      { called with
        socket := { called.socket with currentBufferMemoryBytes := bytes }
        totalMemoryBuffered := called.totalMemoryBuffered - n }
    .again { world, njobsdone, label := .consume job plist n }

/-- One turn of the loop that takes `n` bytes off the packets. -/
def consumeTurn (world : World) (njobsdone : Nat) (job : Nat) (plist : PoolList Packet) (n : SizeT) : JobsTurn :=
  match plist.head with
  | none => .done (.error .nullDereference)
  | some head =>
    let packet := (plist.node head).content
    match packet.data with
    | none => afterPackets maxChunks world njobsdone job plist
    | some _ =>
      let n := n - (packet.len - packet.offset)
      if n.slt 0#64 then
        let plist := plist.setContent head { packet with offset := packet.len + n }
        afterPackets maxChunks world njobsdone job plist
      else
        let world := world.emit (apeSocketReleaseData packet.pointer packet.dataType)
        match apePoolHeadToQueue (plist.setContent head { packet with data := none }) with
        | .error fault => .done (.error fault)
        | .ok (plist, _) =>
          if n = 0#64 then afterPackets maxChunks world njobsdone job plist
          else .again { world, njobsdone, label := .consume job plist n }

def sendfileTurn (world : World) (njobsdone : Nat) (job : Nat) (fd : Nat) : JobsTurn :=
  let reply := kernel.sendfile world.calls
  let called := { world with calls := world.calls + 1 }.emit [.sendfile fd reply]
  match reply with
  | .sent => .again { world := called, njobsdone, label := .sendfile job fd }
  | .again => .done (.ok ({ called with socket := { called.socket with wouldBlock := true } }, 0))
  | .ended =>
    let closed := called.emit [.closeFile fd]
    finishJob { closed with socket := { closed.socket with jobs := closed.socket.jobs.setContent job .null } }
      njobsdone job

def doJobsTurn (doing : DoingJobs) : JobsTurn :=
  match doing.label with
  | .job => jobTurn maxChunks doing.world doing.njobsdone
  | .rewrite job plist chunks => rewriteTurn kernel doing.world doing.njobsdone job plist chunks
  | .consume job plist n => consumeTurn maxChunks doing.world doing.njobsdone job plist n
  | .sendfile job fd => sendfileTurn kernel doing.world doing.njobsdone job fd

/-- `ape_socket_do_jobs`, with at most so many turns of its loops. -/
def apeSocketDoJobs (fuel : Nat) (world : World) : Option (Except Fault (World × Int)) :=
  loop (doJobsTurn kernel maxChunks) fuel { world }

end Turns

/-- An object in memory: it has fewer than `2 ^ 63` bytes. -/
structure DataObject where
  bytes : List Byte
  object : bytes.length < 2 ^ 63

/-- What happens to a socket: a call of the application, or what the event loop does when it can be written. -/
inductive SocketCall
  | write (data : DataObject) (dataType : DataAutorelease)
  | writable
  | doJobs

section Run

variable (kernel : Kernel) (maxChunks fuel : Nat)

def World.perform (world : World) : SocketCall → Option (Except Fault World)
  | .write data dataType => (apeSocketWrite kernel data.bytes dataType fuel world).map (·.map Prod.fst)
  | .writable => some (.ok { world with socket := { world.socket with wouldBlock := false } })
  | .doJobs => (apeSocketDoJobs kernel maxChunks fuel world).map (·.map Prod.fst)

def World.performAll (world : World) : List SocketCall → Option (Except Fault World)
  | [] => some (.ok world)
  | call :: calls =>
    match world.perform kernel maxChunks fuel call with
    | none => none
    | some (.error fault) => some (.error fault)
    | some (.ok next) => next.performAll calls

end Run

end ZapeModel
