import Zape.Network.Client

/-! `WebSocketClient`: the sending half of a WebSocket connection. -/
namespace ZapeModel

open Machine

inductive WebSocketConnectionType
  | client
  | server
  deriving DecidableEq, Repr

inductive FrameState
  | frameStart
  | frameContinue
  | frameFinish
  deriving DecidableEq, Repr

/-- `enum(u4)`, non-exhaustive: a value without a name is kept as it is. -/
inductive OpCode
  | continuation
  | text
  | binary
  | close
  | ping
  | pong
  | other (value : BitVec 4)
  deriving DecidableEq, Repr

def OpCode.fromInt (value : BitVec 4) : OpCode :=
  if value = 0x0#4 then .continuation
  else if value = 0x1#4 then .text
  else if value = 0x2#4 then .binary
  else if value = 0x8#4 then .close
  else if value = 0x9#4 then .ping
  else if value = 0xA#4 then .pong
  else .other value

def OpCode.toInt : OpCode → BitVec 4
  | .continuation => 0x0#4
  | .text => 0x1#4
  | .binary => 0x2#4
  | .close => 0x8#4
  | .ping => 0x9#4
  | .pong => 0xA#4
  | .other value => value

@[simp] theorem OpCode.toInt_fromInt (value : BitVec 4) : (OpCode.fromInt value).toInt = value := by
  revert value
  decide

/-- What an observer of a connection sees: messages decoded and reported, frames and shutdowns
    handed to the transport. -/
inductive Event
  | endMessage (header : Byte) (items : List Byte)
  | onMessage (data : List Byte) (isBinary : Bool) (frame : FrameState)
  | frame (opcode : OpCode) (calls : List TransportCall)
  | transport (call : TransportCall)
  deriving DecidableEq, Repr

structure WebSocketData where
  data : List Byte
  lifetime : DataLifetime
  deriving DecidableEq, Repr

structure WebSocketClient where
  closed : Bool := false
  deriving DecidableEq, Repr

namespace WebSocketClient

/-- The header `writev` puts in front of `dataLen` bytes. Past 32 bits of length it writes none. -/
def payloadHead (connectionType : WebSocketConnectionType) (opcode : OpCode) (dataLen : Nat) :
    List TransportCall :=
  let first := 0x80#8 ||| opcode.toInt.setWidth 8
  let masking := match connectionType with
    | .client => 0x80#8
    | .server => 0x00#8
  if dataLen ≤ 125 then
    [.write [first, masking ||| BitVec.ofNat 8 dataLen] .copy]
  else if dataLen ≤ 65535 then
    [.write ([first, 126#8] ++ bigEndianBytes 2 dataLen) .copy]
  else if dataLen ≤ 0xFFFFFFFF then
    [.write ([first, 127#8] ++ bigEndianBytes 8 dataLen) .copy]
  else []

/-- The calls one `writev` makes on the transport of an open connection. -/
def frameCalls (connectionType : WebSocketConnectionType) (datav : List WebSocketData)
    (opcode : OpCode) : List TransportCall :=
  let dataLen := (datav.map fun data => data.data.length).sum
  -- payloads of the client type are not masked yet: a TODO of the source
  let payload := if dataLen ≠ 0 then
      datav.map fun data => TransportCall.write data.data data.lifetime
    else []
  .tcpBufferStart :: payloadHead connectionType opcode dataLen ++ payload ++ [.tcpBufferEnd]

variable (connectionType : WebSocketConnectionType)

def writev (self : WebSocketClient) (datav : List WebSocketData) (opcode : OpCode) : List Event :=
  if self.closed then [] else [.frame opcode (frameCalls connectionType datav opcode)]

def write (self : WebSocketClient) (data : List Byte) (opcode : OpCode) (lifetime : DataLifetime) :
    List Event :=
  self.writev connectionType [{ lifetime, data }] opcode

def close (self : WebSocketClient) : WebSocketClient × List Event :=
  if self.closed then (self, [])
  else
    let self := { self with closed := true }
    (self, self.write connectionType [] .close .static ++ [.transport (.close .queue)])

def ping (self : WebSocketClient) (data : List Byte) : List Event :=
  if self.closed then [] else self.write connectionType data .ping .copy

def pong (self : WebSocketClient) (data : List Byte) : List Event :=
  if self.closed then [] else self.write connectionType data .pong .copy

end WebSocketClient

inductive ClientCall
  | write (data : List Byte) (opcode : OpCode) (lifetime : DataLifetime)
  | writev (datav : List WebSocketData) (opcode : OpCode)
  | ping (data : List Byte)
  | pong (data : List Byte)
  | close
  deriving DecidableEq, Repr

namespace WebSocketClient

variable (connectionType : WebSocketConnectionType)

def perform (self : WebSocketClient) : ClientCall → WebSocketClient × List Event
  | .write data opcode lifetime => (self, self.write connectionType data opcode lifetime)
  | .writev datav opcode => (self, self.writev connectionType datav opcode)
  | .ping data => (self, self.ping connectionType data)
  | .pong data => (self, self.pong connectionType data)
  | .close => self.close connectionType

def performAll (self : WebSocketClient) : List ClientCall → WebSocketClient × List Event
  | [] => (self, [])
  | call :: calls =>
    let (next, events) := self.perform connectionType call
    let (last, rest) := next.performAll calls
    (last, events ++ rest)

/-- `close` sets the flag before it asks for the Close frame, so `writev` drops that frame. -/
theorem close_events (self : WebSocketClient) : (self.close connectionType) =
    if self.closed then (self, []) else ({ closed := true }, [.transport (.close .queue)]) := by
  cases h : self.closed <;> simp [close, write, writev, h]

theorem perform_of_closed {self : WebSocketClient} (closed : self.closed = true) (call : ClientCall) :
    self.perform connectionType call = (self, []) := by
  cases call <;> simp [perform, write, writev, ping, pong, close, closed]

theorem performAll_of_closed {self : WebSocketClient} (closed : self.closed = true)
    (calls : List ClientCall) : self.performAll connectionType calls = (self, []) := by
  induction calls with
  | nil => rfl
  | cons call calls ih => simp [performAll, perform_of_closed connectionType closed, ih]

end WebSocketClient

end ZapeModel
