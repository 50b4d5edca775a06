import Zape.Machine.Transducer
import Zape.WebSocket.Client
import Zape.Zig.Runtime

/-! `WebSocketState`: the byte-at-a-time frame decoder. -/
namespace ZapeModel

open Machine Zig

inductive ParsingState
  | stepKey
  | stepStart
  | stepLength
  | stepShortLength
  | stepExtendedLength
  | stepData
  deriving DecidableEq, Repr

def maximumPreallocatedBytesPerFrame : Nat := 1024 * 1024

/-- The `frame` field of the decoder. -/
structure FrameFields where
  length : BitVec 64 := 0#64
  header : Byte := 0#8
  prevheader : Byte := 0#8
  lengthPos : BitVec 3 := 0#3

/-- The `cipher` field: a four-byte array indexed by a two-bit integer. -/
structure Cipher where
  key : BitVec 2 → Byte := fun _ => 0#8
  pos : BitVec 2 := 0#2

structure WebSocketState where
  buffer : ArrayList Byte := {}
  client : WebSocketClient := {}
  frame : FrameFields := {}
  cipher : Cipher := {}
  dataInkey : BitVec 2 := 0#2
  masking : Bool := false
  step : ParsingState := .stepStart

/-- `on_message` works on the application's own context and may call back into the client. -/
structure WebSocketCallbacks (T : Type) where
  onMessage : Option (WebSocketClient → T → List Byte → Bool → FrameState → T × List ClientCall) := none

namespace WebSocketState

variable {T : Type} (connectionType : WebSocketConnectionType) (callbacks : WebSocketCallbacks T)

def resetState (self : WebSocketState) : WebSocketState := { self with step := .stepStart }

def opcode (self : WebSocketState) : OpCode := OpCode.fromInt ((self.frame.header &&& 0x0f#8).setWidth 4)

def isBinary (self : WebSocketState) : Bool :=
  self.opcode = .binary ∨ (self.opcode = .continuation ∧ self.frame.prevheader &&& 0x0F#8 = 0x2#8)

def frameState (self : WebSocketState) : FrameState :=
  if self.frame.header &&& 0xf0#8 = 0x80#8 then .frameFinish
  else if self.opcode = .continuation then .frameContinue
  else .frameStart

/-- The `switch (opcode)` of `end_message`. -/
def dispatch (self : WebSocketState) (context : T) : WebSocketClient × T × List Event :=
  match self.opcode with
  | .continuation | .text | .binary =>
    match callbacks.onMessage with
    | none => (self.client, context, [])
    | some onMessage =>
      let (context, calls) := onMessage self.client context self.buffer.items self.isBinary self.frameState
      let (client, events) := self.client.performAll connectionType calls
      (client, context, .onMessage self.buffer.items self.isBinary self.frameState :: events)
  | .close =>
    let (client, events) := self.client.close connectionType
    (client, context, events)
  | .ping => (self.client, context, self.client.pong connectionType self.buffer.items)
  | .pong => (self.client, context, [])
  | .other _ => (self.client, context, [])

def endMessage (self : WebSocketState) (context : T) : (WebSocketState × T) × List Event :=
  let (client, context, events) := self.dispatch connectionType callbacks context
  (({ self with client }.resetState, context), .endMessage self.frame.header self.buffer.items :: events)

/-- The branch of `process_data` for the second byte of a frame, up to the test for an empty one. -/
def secondByte (self : WebSocketState) (byte : Byte) : WebSocketState :=
  let self := { self with masking := byte &&& 0x80#8 ≠ 0#8 }
  if byte &&& 0x7f#8 = 126#8 then { self with step := .stepShortLength }
  else if byte &&& 0x7f#8 = 127#8 then { self with step := .stepExtendedLength }
  else { self with
    frame := { self.frame with length := (byte &&& 0x7f#8).setWidth 64 }
    step := if self.masking then .stepKey else .stepData }

/-- The length with one more byte of its extended form, and whether that was the last one. -/
def readLength (self : WebSocketState) (byte : Byte) : Except Panic (BitVec 64 × Bool) := do
  let shift ← mul (self.frame.lengthPos.setWidth 6) 8#6
  let length := self.frame.length ||| (byte.setWidth 64 <<< shift.toNat)
  match self.step with
  | .stepShortLength =>
    if self.frame.lengthPos = 1#3 then do
      let short ← intCast 16 length
      pure ((@byteSwap 2 short).setWidth 64, true)
    else pure (length, false)
  | .stepExtendedLength =>
    if self.frame.lengthPos = 7#3 then do
      let long ← intCast 64 length
      pure (@byteSwap 8 long, true)
    else pure (length, false)
  | _ => throw .reachedUnreachable

/-- The branch of `process_data` for a byte of an extended length. -/
def lengthByte (self : WebSocketState) (byte : Byte) : Except Panic WebSocketState := do
  let (length, doneReadingLength) ← self.readLength byte
  if doneReadingLength then
    pure { self with
      frame := { self.frame with length }
      step := if self.masking then .stepKey else .stepData }
  else
    let lengthPos ← add self.frame.lengthPos 1#3
    pure { self with frame := { self.frame with length, lengthPos } }

variable [GrowthPolicy]

/-- The body of the loop of `process_data`. -/
def processByte : Transition Panic (WebSocketState × T) Byte Event
  | (self, context), byte =>
    match self.step with
    | .stepStart =>
      .ok (({ self with
        frame := { self.frame with header := byte, lengthPos := 0#3, length := 0#64 }
        step := .stepLength
        dataInkey := 0#2
        cipher := { self.cipher with pos := 0#2 }
        buffer := self.buffer.resizeToZero }, context), [])
    | .stepLength =>
      let self := self.secondByte byte
      if !self.masking ∧ self.frame.length = 0#64 then
        .ok (self.endMessage connectionType callbacks context)
      else .ok ((self, context), [])
    | .stepShortLength | .stepExtendedLength =>
      match self.lengthByte byte with
      | .error panic => .error panic
      | .ok self => .ok ((self, context), [])
    | .stepKey =>
      let self := { self with
        cipher := { self.cipher with key := fun i => if i = self.cipher.pos then byte else self.cipher.key i } }
      if self.cipher.pos = 3#2 then
        let self := { self with step := .stepData }
        if self.frame.length = 0#64 then .ok (self.endMessage connectionType callbacks context)
        else .ok ((self, context), [])
      else
        match add self.cipher.pos 1#2 with
        | .error panic => .error panic
        | .ok pos => .ok (({ self with cipher := { self.cipher with pos } }, context), [])
    | .stepData =>
      let decodedByte := byte ^^^ self.cipher.key self.dataInkey
      let buffer :=
        if self.buffer.capacity = 0 then
          self.buffer.ensureTotalCapacity (min self.frame.length.toNat maximumPreallocatedBytesPerFrame)
        else self.buffer
      let self := { self with buffer := buffer.append decodedByte }
      if self.buffer.items.length = self.frame.length.toNat then
        .ok (self.endMessage connectionType callbacks context)
      else
        -- `data_inkey +%= 1` wraps
        .ok (({ self with dataInkey := self.dataInkey + 1#2 }, context), [])

def processData : Transition Panic (WebSocketState × T) (List Byte) Event :=
  run (processByte connectionType callbacks)

end WebSocketState

/-- What happens to an open connection: a read, or a call of the application. -/
inductive Activity
  | read (data : List Byte)
  | call (call : ClientCall)

def WebSocketState.activity {T : Type} [GrowthPolicy] (connectionType : WebSocketConnectionType)
    (callbacks : WebSocketCallbacks T) :
    Transition Panic (WebSocketState × T) Activity Event
  | session, .read data => processData connectionType callbacks session data
  | (self, context), .call call =>
    let (client, events) := self.client.perform connectionType call
    .ok (({ self with client }, context), events)

end ZapeModel
