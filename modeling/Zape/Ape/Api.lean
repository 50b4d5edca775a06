import Zape.Ape.Ordering

/-! `APE_sendfile` and `APE_socket_shutdown` on a plain socket, and runs of all the calls that queue jobs. -/
namespace ZapeModel

open Machine

def apeSocketShutdown (world : World) : Except Fault World :=
  match world.socket.state with
  | .shutdown | .offline => .ok world
  | .progress | .pending => .ok ({ world with socket := { world.socket with state := .offline } }.emit [.destroy])
  | .online =>
    match world.socket.jobs.head with
    | none => .error .nullDereference
    | some head =>
      if world.socket.wouldBlock ∨ (world.socket.jobs.node head).active then
        (apeSocketJobGetSlot world.socket apeSocketJobShutdown).map fun (socket, _) => { world with socket }
      else .ok ({ world with socket := { world.socket with state := .shutdown } }.emit [.shutdown])

def queueFile (world : World) (fd : Nat) : Except Fault (World × Int) :=
  let socket := { world.socket with wouldBlock := true }
  (apeSocketJobGetSlot socket apeSocketJobSendfile).map fun (socket, job) =>
    ({ world with socket := { socket with jobs := socket.jobs.setContent job (.fd fd) } }, 1)

section Calls

variable (kernel : Kernel) (maxChunks fuel : Nat)

/-- One call of `sendfile` in `APE_sendfile`. -/
def sendTurn (fd : Nat) (world : World) : Turn World (Except Fault (World × Int)) :=
  let reply := kernel.sendfile world.calls
  let called := { world with calls := world.calls + 1 }.emit [.sendfile fd reply]
  match reply with
  | .sent => .again called
  | .again => .done (queueFile called fd)
  | .ended => .done (.ok (called.emit [.closeFile fd], 1))

/-- `APE_sendfile`; the file is what `open` returned for it. -/
def apeSendfile (file : Option Nat) (world : World) : Option (Except Fault (World × Int)) :=
  if world.socket.state ≠ .online then some (.ok (world, 0))
  else
    match file with
    | none => some (.ok (world, 0))
    | some fd =>
      match world.socket.jobs.head with
      | none => some (.error .nullDereference)
      | some head =>
        if world.socket.wouldBlock ∨ (world.socket.jobs.node head).active then some (queueFile world fd)
        else loop (sendTurn kernel fd) fuel world

inductive ApiCall
  | socket (call : SocketCall)
  | sendfile (file : Option Nat)
  | shutdown

inductive Stop
  | fault (fault : Fault)
  | endless

/-- The outcome of a call whose loops were cut off. -/
def Stop.outcome {α : Type} : Option (Except Fault α) → Except Stop α
  | none => .error .endless
  | some (.error reason) => .error (.fault reason)
  | some (.ok value) => .ok value

def World.performApi (world : World) : ApiCall → Except Stop World
  | .socket call => Stop.outcome (world.perform kernel maxChunks fuel call)
  | .sendfile file => Stop.outcome ((apeSendfile kernel fuel file world).map (·.map Prod.fst))
  | .shutdown => Stop.outcome (some (apeSocketShutdown world))

end Calls

end ZapeModel
