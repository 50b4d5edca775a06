import Zape.WebSocket.State

/-! What can be seen of a connection, and what the sending half contributes to it. -/
namespace ZapeProof

open Machine ZapeModel ZapeModel.WebSocketClient

/-- `WebSocketClient.close` on an open connection asks for this, and nothing else does. -/
def closing : Event := .transport (.close .queue)

def sent : Event → Bool
  | .frame _ _ | .transport _ => true
  | .endMessage _ _ | .onMessage _ _ _ => false

def endMessages (events : List Event) : List (Byte × List Byte) :=
  events.filterMap fun
    | .endMessage header items => some (header, items)
    | _ => none

def messages (events : List Event) : List (List Byte × Bool × FrameState) :=
  events.filterMap fun
    | .onMessage data isBinary frame => some (data, isBinary, frame)
    | _ => none

def written (events : List Event) : List OpCode :=
  events.filterMap fun
    | .frame opcode _ => some opcode
    | _ => none

section Observers

variable (left right : List Event)

@[simp] theorem endMessages_append : endMessages (left ++ right) = endMessages left ++ endMessages right :=
  List.filterMap_append

@[simp] theorem messages_append : messages (left ++ right) = messages left ++ messages right :=
  List.filterMap_append

@[simp] theorem written_append : written (left ++ right) = written left ++ written right :=
  List.filterMap_append

end Observers

@[simp] theorem endMessages_nil : endMessages [] = [] := rfl
@[simp] theorem messages_nil : messages [] = [] := rfl
@[simp] theorem written_nil : written [] = [] := rfl

@[simp] theorem endMessages_endMessage (header : Byte) (items : List Byte) (events : List Event) :
    endMessages (.endMessage header items :: events) = (header, items) :: endMessages events := rfl

@[simp] theorem endMessages_onMessage (data : List Byte) (isBinary : Bool) (frame : FrameState)
    (events : List Event) : endMessages (.onMessage data isBinary frame :: events) = endMessages events := rfl

@[simp] theorem messages_endMessage (header : Byte) (items : List Byte) (events : List Event) :
    messages (.endMessage header items :: events) = messages events := rfl

@[simp] theorem messages_onMessage (data : List Byte) (isBinary : Bool) (frame : FrameState)
    (events : List Event) :
    messages (.onMessage data isBinary frame :: events) = (data, isBinary, frame) :: messages events := rfl

@[simp] theorem written_endMessage (header : Byte) (items : List Byte) (events : List Event) :
    written (.endMessage header items :: events) = written events := rfl

@[simp] theorem written_onMessage (data : List Byte) (isBinary : Bool) (frame : FrameState)
    (events : List Event) : written (.onMessage data isBinary frame :: events) = written events := rfl

theorem endMessages_of_sent {events : List Event} (all : ∀ event ∈ events, sent event = true) :
    endMessages events = [] := by
  unfold endMessages
  rw [List.filterMap_eq_nil_iff]
  intro event member
  have only := all event member
  cases event <;> simp_all [sent]

theorem messages_of_sent {events : List Event} (all : ∀ event ∈ events, sent event = true) :
    messages events = [] := by
  unfold messages
  rw [List.filterMap_eq_nil_iff]
  intro event member
  have only := all event member
  cases event <;> simp_all [sent]

/-- Effects of client calls: frames and shutdowns only, and the connection is closed afterwards exactly
    when it was closed before or the shutdown is among them. -/
structure Effects (client next : WebSocketClient) (events : List Event) : Prop where
  sent : ∀ event ∈ events, sent event = true
  closed : next.closed = true ↔ client.closed = true ∨ closing ∈ events

namespace Effects

theorem none (client : WebSocketClient) : Effects client client [] :=
  { sent := by simp, closed := by simp }

theorem append {first second third : WebSocketClient} {left right : List Event}
    (earlier : Effects first second left) (later : Effects second third right) :
    Effects first third (left ++ right) where
  sent := by
    intro event member
    rcases List.mem_append.mp member with member | member
    · exact earlier.sent event member
    · exact later.sent event member
  closed := by rw [later.closed, earlier.closed, List.mem_append, or_assoc]

theorem endMessages_eq {client next : WebSocketClient} {events : List Event}
    (effects : Effects client next events) : endMessages events = [] := endMessages_of_sent effects.sent

theorem messages_eq {client next : WebSocketClient} {events : List Event}
    (effects : Effects client next events) : messages events = [] := messages_of_sent effects.sent

end Effects

variable (connectionType : WebSocketConnectionType)

theorem writev_effects (client : WebSocketClient) (datav : List WebSocketData) (opcode : OpCode) :
    Effects client client (client.writev connectionType datav opcode) := by
  unfold writev
  split
  · exact .none client
  · exact { sent := by simp [sent], closed := by simp [closing] }

theorem close_effects (client : WebSocketClient) :
    Effects client (client.close connectionType).1 (client.close connectionType).2 := by
  rw [close_events]
  split
  · exact .none client
  · exact { sent := by simp [sent], closed := by simp [closing] }

theorem pong_effects (client : WebSocketClient) (data : List Byte) :
    Effects client client (client.pong connectionType data) := by
  unfold pong
  split
  · exact .none client
  · exact writev_effects connectionType client _ _

theorem ping_effects (client : WebSocketClient) (data : List Byte) :
    Effects client client (client.ping connectionType data) := by
  unfold ping
  split
  · exact .none client
  · exact writev_effects connectionType client _ _

theorem perform_effects (client : WebSocketClient) (call : ClientCall) :
    Effects client (client.perform connectionType call).1 (client.perform connectionType call).2 := by
  cases call with
  | write data opcode lifetime => exact writev_effects connectionType client _ opcode
  | writev datav opcode => exact writev_effects connectionType client datav opcode
  | ping data => exact ping_effects connectionType client data
  | pong data => exact pong_effects connectionType client data
  | close => exact close_effects connectionType client

theorem performAll_effects (client : WebSocketClient) (calls : List ClientCall) :
    Effects client (client.performAll connectionType calls).1 (client.performAll connectionType calls).2 := by
  induction calls generalizing client with
  | nil => exact .none client
  | cons call calls ih =>
    exact (perform_effects connectionType client call).append (ih (client.perform connectionType call).1)

def dataOpcode : OpCode → Bool
  | .continuation | .text | .binary => true
  | .close | .ping | .pong | .other _ => false

section Dispatch

variable {T : Type} (callbacks : WebSocketCallbacks T)

/-- The client calls a complete message leads to: those of the listener, or those of the protocol. -/
def requests (decoder : WebSocketState) (context : T) : List ClientCall :=
  match decoder.opcode with
  | .continuation | .text | .binary =>
    match callbacks.onMessage with
    | none => []
    | some onMessage =>
      (onMessage decoder.client context decoder.buffer.items decoder.isBinary decoder.frameState).2
  | .close => [.close]
  | .ping => [.pong decoder.buffer.items]
  | .pong | .other _ => []

/-- The report of a complete data message, when the application listens. -/
def report (decoder : WebSocketState) : List Event :=
  if dataOpcode decoder.opcode ∧ callbacks.onMessage.isSome then
    [.onMessage decoder.buffer.items decoder.isBinary decoder.frameState]
  else []

theorem dispatch_requests (decoder : WebSocketState) (context : T) :
    let performed := decoder.client.performAll connectionType (requests callbacks decoder context)
    (decoder.dispatch connectionType callbacks context).1 = performed.1 ∧
      (decoder.dispatch connectionType callbacks context).2.2 = report callbacks decoder ++ performed.2 := by
  unfold WebSocketState.dispatch requests report
  cases opcode : decoder.opcode <;> simp only [dataOpcode]
  case close => simp [performAll, perform]
  case ping => simp [performAll, perform]
  case pong => simp [performAll]
  case other => simp [performAll]
  all_goals cases callbacks.onMessage <;> simp [performAll]

theorem dispatch_effects (decoder : WebSocketState) (context : T) :
    ∃ effects, Effects decoder.client (decoder.dispatch connectionType callbacks context).1 effects ∧
      (decoder.dispatch connectionType callbacks context).2.2 = report callbacks decoder ++ effects := by
  obtain ⟨client, events⟩ := dispatch_requests connectionType callbacks decoder context
  refine ⟨_, ?_, events⟩
  rw [client]
  exact performAll_effects connectionType decoder.client _

theorem endMessages_report (decoder : WebSocketState) : endMessages (report callbacks decoder) = [] := by
  unfold report
  split <;> rfl

theorem endMessage_ended (decoder : WebSocketState) (context : T) :
    endMessages (decoder.endMessage connectionType callbacks context).2 =
      [(decoder.frame.header, decoder.buffer.items)] := by
  obtain ⟨effects, effected, events⟩ := dispatch_effects connectionType callbacks decoder context
  simp only [WebSocketState.endMessage, events, endMessages_endMessage, endMessages_append, effected.endMessages_eq,
    endMessages_report, List.append_nil]

theorem endMessage_reported (decoder : WebSocketState) (context : T) :
    messages (decoder.endMessage connectionType callbacks context).2 =
      if dataOpcode decoder.opcode ∧ callbacks.onMessage.isSome then
        [(decoder.buffer.items, decoder.isBinary, decoder.frameState)] else [] := by
  obtain ⟨effects, effected, events⟩ := dispatch_effects connectionType callbacks decoder context
  simp only [WebSocketState.endMessage, events, messages_endMessage, messages_append, effected.messages_eq, List.append_nil,
    report]
  split <;> rfl

end Dispatch

end ZapeProof
