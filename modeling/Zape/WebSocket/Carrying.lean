import Zape.Ape.Streaming
import Zape.WebSocket.Peer

/-! The frames of a WebSocket on their way through the socket below it. -/
namespace ZapeModel

open Machine

/-- `DataLifetime` has the values of `ape_socket_data_autorelease`. -/
def DataLifetime.autorelease : DataLifetime → DataAutorelease
  | .static => .static
  | .own => .own
  | .copy => .copy

/-- `Client.write` calls `APE_socket_write`. -/
def TransportCall.written : TransportCall → Option (List Byte × DataAutorelease)
  | .write data lifetime => some (data, lifetime.autorelease)
  | .tcpBufferStart | .tcpBufferEnd | .close _ => none

def SocketCall.written : SocketCall → Option (List Byte × DataAutorelease)
  | .write data dataType => some (data.bytes, dataType)
  | .writable | .doJobs => none

end ZapeModel

namespace ZapeProof

open Machine Zig ZapeModel ZapeModel.WebSocketState

theorem given_written (calls : List SocketCall) :
    calls.flatMap SocketCall.given = (calls.filterMap SocketCall.written).flatMap Prod.fst := by
  induction calls with
  | nil => rfl
  | cons call calls ih =>
    cases call with
    | write data dataType => exact congrArg (data.bytes ++ ·) ih
    | writable => exact ih
    | doJobs => exact ih

theorem handed_written (calls : List TransportCall) :
    handed calls = (calls.filterMap TransportCall.written).flatMap Prod.fst := by
  induction calls with
  | nil => rfl
  | cons call calls ih =>
    cases call with
    | write data lifetime => exact congrArg (data ++ ·) ih
    | tcpBufferStart => exact ih
    | tcpBufferEnd => exact ih
    | close action => exact ih

theorem flatMap_prefix {α β : Type} (f : α → List β) {left right : List α} (part : left <+: right) :
    left.flatMap f <+: right.flatMap f := by
  obtain ⟨rest, rfl⟩ := part
  rw [List.flatMap_append]
  exact List.prefix_append _ _

section Carry

variable {T : Type} [GrowthPolicy]

end Carry

section Greeting

def greetingWrites : List SocketCall :=
  [.write ⟨[0x81#8, 2#8], by decide⟩ .copy, .write ⟨text "Hi", by decide⟩ .copy]

end Greeting

end ZapeProof
