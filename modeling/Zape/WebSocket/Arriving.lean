import Zape.Ape.Receiving
import Zape.WebSocket.Unmasked

/-! The frames of a peer on their way through the socket of a WebSocket. -/
namespace ZapeProof

open Machine Zig ZapeModel ZapeModel.WebSocketState

section Arrive

variable {T : Type} [GrowthPolicy]

end Arrive

section Greeting

def maskedHi : Frame := ⟨true, .text, .short, some fun i => i.setWidth 8, text "Hi", by decide⟩

/-- `maskedHi` in two parts. -/
def maskedGreeting : ReadEvent where
  arriving := [.bytes [0x81#8, 0x82#8, 0#8], .bytes [1#8, 2#8, 3#8, 0x48#8, 0x68#8]]
  onRead := fun _ connection => .ok connection
  onDisconnect := fun connection => .ok connection

end Greeting

end ZapeProof
