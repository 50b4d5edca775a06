import Zape.WebSocket.Client

/-! RFC 6455 frames as a sender may put them on the wire, with the reserved bits zero. -/
namespace ZapeModel

open Machine

inductive FrameKind
  | continuation
  | text
  | binary
  | close
  | ping
  | pong
  deriving DecidableEq, Repr

def FrameKind.opcode : FrameKind → OpCode
  | .continuation => .continuation
  | .text => .text
  | .binary => .binary
  | .close => .close
  | .ping => .ping
  | .pong => .pong

inductive LengthForm
  | short
  | extended16
  | extended64
  deriving DecidableEq, Repr

/-- The longest payload whose length the form can hold. -/
def LengthForm.capacity : LengthForm → Nat
  | .short => 125
  | .extended16 => 2 ^ 16 - 1
  | .extended64 => 2 ^ 64 - 1

abbrev MaskingKey := BitVec 2 → Byte

def MaskingKey.bytes (key : MaskingKey) : List Byte := [key 0#2, key 1#2, key 2#2, key 3#2]

/-- Octet `i` of the payload is masked with octet `i mod 4` of the key. -/
def MaskingKey.mask (key : MaskingKey) : BitVec 2 → List Byte → List Byte
  | _, [] => []
  | index, byte :: bytes => (byte ^^^ key index) :: mask key (index + 1#2) bytes

@[simp] theorem MaskingKey.mask_length (key : MaskingKey) (index : BitVec 2) (bytes : List Byte) :
    (key.mask index bytes).length = bytes.length := by
  induction bytes generalizing index with
  | nil => rfl
  | cons byte bytes ih => simp [mask, ih]

theorem MaskingKey.mask_mask (key : MaskingKey) (index : BitVec 2) (bytes : List Byte) :
    key.mask index (key.mask index bytes) = bytes := by
  induction bytes generalizing index with
  | nil => rfl
  | cons byte bytes ih => simp [mask, ih, BitVec.xor_assoc]

structure Frame where
  fin : Bool
  kind : FrameKind
  form : LengthForm
  maskingKey : Option MaskingKey
  payload : List Byte
  fits : payload.length ≤ form.capacity

namespace Frame

def masked (frame : Frame) : Bool := frame.maskingKey.isSome

def headerByte (frame : Frame) : Byte :=
  (if frame.fin then 0x80#8 else 0x00#8) ||| frame.kind.opcode.toInt.setWidth 8

def maskBit (frame : Frame) : Byte := if frame.masked then 0x80#8 else 0x00#8

def lengthField (frame : Frame) : List Byte :=
  match frame.form with
  | .short => [frame.maskBit ||| BitVec.ofNat 8 frame.payload.length]
  | .extended16 => (frame.maskBit ||| 126#8) :: bigEndianBytes 2 frame.payload.length
  | .extended64 => (frame.maskBit ||| 127#8) :: bigEndianBytes 8 frame.payload.length

def body (frame : Frame) : List Byte :=
  match frame.maskingKey with
  | none => frame.payload
  | some key => key.bytes ++ key.mask 0#2 frame.payload

def wire (frame : Frame) : List Byte := frame.headerByte :: frame.lengthField ++ frame.body

end Frame

end ZapeModel
