import Zape.WebSocket.Decoding
import Zape.WebSocket.Sending

/-! A connection as a receiver of whole frames, and the decoder as an implementation of it. -/
namespace ZapeProof

open Machine Zig ZapeModel ZapeModel.WebSocketState

def frameState (frame : Frame) : FrameState :=
  if frame.fin then .frameFinish
  else if frame.kind = .continuation then .frameContinue
  else .frameStart

section Answer

variable {T : Type} (connectionType : WebSocketConnectionType) (callbacks : WebSocketCallbacks T)

/-- What a frame is good for once it is complete. -/
def answer (frame : Frame) (payload : List Byte) (client : WebSocketClient) (context : T) :
    WebSocketClient × T × List Event :=
  match frame.kind with
  | .continuation | .text | .binary =>
    match callbacks.onMessage with
    | none => (client, context, [])
    | some onMessage =>
      let isBinary := decide (frame.kind = .binary)
      let (context, calls) := onMessage client context payload isBinary (frameState frame)
      let (client, events) := client.performAll connectionType calls
      (client, context, .onMessage payload isBinary (frameState frame) :: events)
  | .close =>
    let (client, events) := client.close connectionType
    (client, context, events)
  | .ping => (client, context, client.pong connectionType payload)
  | .pong => (client, context, [])

structure Session (T : Type) where
  client : WebSocketClient := {}
  key : MaskingKey := fun _ => 0#8
  context : T

/-- The receiver of whole frames. It keeps the key an unmasked frame would be combined with. -/
def deliver : Transition Panic (Session T) Frame Event
  | session, frame =>
    let payload := received session.key frame
    let (client, context, events) := answer connectionType callbacks frame payload session.client session.context
    .ok ({ client, key := keyAfter session.key frame, context }, .endMessage frame.headerByte payload :: events)

end Answer

section Refinement

variable {T : Type} {connectionType : WebSocketConnectionType} {callbacks : WebSocketCallbacks T}

theorem headerByte_opcode (fin : Bool) (kind : FrameKind) :
    OpCode.fromInt ((((if fin then 0x80#8 else 0x00#8) ||| kind.opcode.toInt.setWidth 8) &&& 0x0f#8).setWidth 4) =
      kind.opcode := by
  cases fin <;> cases kind <;> decide

theorem headerByte_fin (fin : Bool) (kind : FrameKind) :
    ((if fin then 0x80#8 else 0x00#8) ||| kind.opcode.toInt.setWidth 8) &&& 0xf0#8 =
      (if fin then 0x80#8 else 0x00#8) := by
  cases fin <;> cases kind <;> decide

theorem opcode_of_header {decoder : WebSocketState} {frame : Frame} (header : decoder.frame.header = frame.headerByte) :
    decoder.opcode = frame.kind.opcode := by
  rw [WebSocketState.opcode, header]
  exact headerByte_opcode frame.fin frame.kind

theorem frameState_of_header {decoder : WebSocketState} {frame : Frame}
    (header : decoder.frame.header = frame.headerByte) : decoder.frameState = frameState frame := by
  have high : decoder.frame.header &&& 0xf0#8 = if frame.fin then 0x80#8 else 0x00#8 := by
    rw [header]
    exact headerByte_fin frame.fin frame.kind
  rw [WebSocketState.frameState, frameState, high, opcode_of_header header]
  cases frame.fin <;> cases frame.kind <;> rfl

/-- `prevheader` is never written, so a continuation is never binary. -/
theorem isBinary_of_header {decoder : WebSocketState} {frame : Frame}
    (header : decoder.frame.header = frame.headerByte) (previous : decoder.frame.prevheader = 0#8) :
    decoder.isBinary = decide (frame.kind = .binary) := by
  rw [WebSocketState.isBinary, previous, opcode_of_header header]
  cases frame.kind <;> rfl

theorem dispatch_answer {decoder : WebSocketState} {frame : Frame} {payload : List Byte}
    (header : decoder.frame.header = frame.headerByte) (previous : decoder.frame.prevheader = 0#8)
    (items : decoder.buffer.items = payload) (context : T) :
    decoder.dispatch connectionType callbacks context =
      answer connectionType callbacks frame payload decoder.client context := by
  have opcode := opcode_of_header header
  have state := frameState_of_header header
  have binary := isBinary_of_header header previous
  unfold dispatch answer
  rw [opcode, state, binary, items]
  cases kind : frame.kind <;> rfl

/-- Between two frames the decoder holds what the receiver of frames holds. -/
structure Between (decoder : WebSocketState × T) (session : Session T) : Prop where
  step : decoder.1.step = .stepStart
  prevheader : decoder.1.frame.prevheader = 0#8
  client : decoder.1.client = session.client
  key : decoder.1.cipher.key = session.key
  context : decoder.2 = session.context

theorem between_fresh (context : T) : Between (({} : WebSocketState), context) { context } :=
  { step := rfl, prevheader := rfl, client := rfl, key := rfl, context := rfl }

theorem endMessage_of_dispatch {decoder : WebSocketState} {client : WebSocketClient} {context next : T}
    {events : List Event} (dispatched : decoder.dispatch connectionType callbacks context = (client, next, events)) :
    decoder.endMessage connectionType callbacks context =
      (({ decoder with client }.resetState, next), .endMessage decoder.frame.header decoder.buffer.items :: events) := by
  simp only [endMessage, dispatched]

theorem deliver_of_answer {session : Session T} {frame : Frame} {client : WebSocketClient} {next : T}
    {events : List Event}
    (answered : answer connectionType callbacks frame (received session.key frame) session.client session.context =
      (client, next, events)) :
    deliver connectionType callbacks session frame =
      .ok ({ client, key := keyAfter session.key frame, context := next },
        .endMessage frame.headerByte (received session.key frame) :: events) := by
  simp only [deliver, answered]

variable [GrowthPolicy]

theorem decoder_delivers {decoder : WebSocketState × T} {session : Session T} (between : Between decoder session)
    (frame : Frame) (readable : frame.masked = true ∨ frame.form = .short) :
    ∃ next sessionNext out, run (processByte connectionType callbacks) decoder frame.wire = .ok (next, out) ∧
      deliver connectionType callbacks session frame = .ok (sessionNext, out) ∧ Between next sessionNext := by
  obtain ⟨self, context⟩ := decoder
  obtain ⟨step, prevheader, client, key, rfl⟩ := between
  obtain ⟨last, reads, completed⟩ := @read_frame _ T connectionType callbacks self session.context step frame readable
  have previous : last.frame.prevheader = 0#8 := completed.prevheader.trans prevheader
  have answered := @dispatch_answer T connectionType callbacks last frame _ completed.header previous
    completed.items session.context
  rw [completed.client, client, key] at answered
  rcases effects : answer connectionType callbacks frame (received session.key frame) session.client session.context
    with ⟨client, next, events⟩
  rw [effects] at answered
  rw [endMessage_of_dispatch answered, completed.header, completed.items, key] at reads
  refine ⟨_, _, _, reads, deliver_of_answer effects, ?_⟩
  exact { step := rfl, prevheader := previous, client := rfl, key := by rw [← key]; exact completed.key, context := rfl }

/-- Frames the decoder can read leave the trace of the receiver of frames, however the bytes are cut. -/
theorem reads_deliver {decoder : WebSocketState × T} {session : Session T} (between : Between decoder session)
    (frames : List Frame) (readable : ∀ frame ∈ frames, frame.masked = true ∨ frame.form = .short) :
    ∃ last sessionLast out,
      run (processByte connectionType callbacks) decoder (frames.flatMap Frame.wire) = .ok (last, out) ∧
      run (deliver connectionType callbacks) session frames = .ok (sessionLast, out) ∧ Between last sessionLast :=
  run_simulation Frame.wire Between (fun frame => frame.masked = true ∨ frame.form = .short)
    (fun _ _ frame between admitted => decoder_delivers between frame admitted) between frames readable

end Refinement

section Trace

variable {T : Type} {connectionType : WebSocketConnectionType} {callbacks : WebSocketCallbacks T}

theorem answer_ping {frame : Frame} (ping : frame.kind = .ping) (payload : List Byte) (client : WebSocketClient)
    (context : T) :
    answer connectionType callbacks frame payload client context =
      (client, context, client.pong connectionType payload) := by
  simp only [answer, ping]

theorem answer_effects (frame : Frame) (payload : List Byte) (client : WebSocketClient) (context : T) :
    ∃ effects, Effects client (answer connectionType callbacks frame payload client context).1 effects ∧
      (answer connectionType callbacks frame payload client context).2.2 =
        (if dataOpcode frame.kind.opcode ∧ callbacks.onMessage.isSome then
          [.onMessage payload (decide (frame.kind = .binary)) (frameState frame)] else []) ++ effects := by
  let decoder : WebSocketState := { buffer := { items := payload }, client, frame := { header := frame.headerByte } }
  have header : decoder.frame.header = frame.headerByte := rfl
  have answered := @dispatch_answer T connectionType callbacks decoder frame payload header rfl rfl context
  have effects := dispatch_effects connectionType callbacks decoder context
  rw [answered, report, opcode_of_header header, frameState_of_header header, isBinary_of_header header rfl] at effects
  exact effects

/-- Every frame with the payload the decoder takes it to carry. -/
def readings : MaskingKey → List Frame → List (Frame × List Byte)
  | _, [] => []
  | key, frame :: frames => (frame, received key frame) :: readings (keyAfter key frame) frames

def reports (reading : Frame × List Byte) : Option (List Byte × Bool × FrameState) :=
  if dataOpcode reading.1.kind.opcode then some (reading.2, decide (reading.1.kind = .binary), frameState reading.1) else none

/-- What a run over whole frames leaves behind. -/
structure DeliveryTrace (callbacks : WebSocketCallbacks T) (session : Session T) (frames : List Frame)
    (last : Session T) (out : List Event) : Prop where
  ended : endMessages out = (readings session.key frames).map fun reading => (reading.1.headerByte, reading.2)
  reported : messages out =
    if callbacks.onMessage.isSome then (readings session.key frames).filterMap reports else []
  closed : last.client.closed = true ↔ session.client.closed = true ∨ closing ∈ out
  key : last.key = frames.foldl keyAfter session.key
  first : ∀ event ∈ out.head?, ∃ header items, event = .endMessage header items

theorem deliver_trace {session next : Session T} {frame : Frame} {out : List Event}
    (delivered : deliver connectionType callbacks session frame = .ok (next, out)) :
    DeliveryTrace callbacks session [frame] next out := by
  obtain ⟨effects, effected, events⟩ := @answer_effects T connectionType callbacks frame
    (received session.key frame) session.client session.context
  rcases answered : answer connectionType callbacks frame (received session.key frame) session.client session.context
    with ⟨client, context, emitted⟩
  rw [answered] at effected events
  rw [deliver_of_answer answered] at delivered
  cases delivered
  simp only at effected events
  subst events
  constructor
  · simp only [readings, List.map_cons, List.map_nil, endMessages_endMessage, endMessages_append,
      effected.endMessages_eq]
    split <;> rfl
  · simp only [readings, messages_endMessage, messages_append, effected.messages_eq, reports, List.filterMap_cons,
      List.filterMap_nil, List.append_nil]
    cases dataOpcode frame.kind.opcode <;> cases callbacks.onMessage.isSome <;> rfl
  · rw [effected.closed, List.mem_cons, List.mem_append]
    simp [closing]
  · rfl
  · simp

theorem DeliveryTrace.cons {session next last : Session T} {frame : Frame} {frames : List Frame}
    {out rest : List Event} (head : DeliveryTrace callbacks session [frame] next out)
    (tail : DeliveryTrace callbacks next frames last rest) :
    DeliveryTrace callbacks session (frame :: frames) last (out ++ rest) where
  ended := by
    rw [endMessages_append, head.ended, tail.ended, head.key]
    rfl
  reported := by
    rw [messages_append, head.reported, tail.reported, head.key]
    cases callbacks.onMessage.isSome
    · rfl
    · simp only [readings, ite_true]
      rw [← List.filterMap_append]
      rfl
  closed := by rw [tail.closed, head.closed, List.mem_append, or_assoc]
  key := by
    rw [tail.key, head.key]
    rfl
  first := by
    cases out with
    | nil =>
      have counted := head.ended
      cases counted
    | cons event out => exact head.first

theorem run_deliver_trace {session last : Session T} {frames : List Frame} {out : List Event}
    (delivered : run (deliver connectionType callbacks) session frames = .ok (last, out)) :
    DeliveryTrace callbacks session frames last out := by
  induction frames generalizing session out with
  | nil =>
    cases delivered
    exact { ended := rfl, reported := by simp [readings], closed := by simp, key := rfl, first := by simp }
  | cons frame frames ih =>
    obtain ⟨next, out, rest, first, others, rfl⟩ := andThen_cases delivered
    exact (deliver_trace first).cons (ih others)

theorem readings_masked {frames : List Frame} (masked : ∀ frame ∈ frames, frame.masked = true) (key : MaskingKey) :
    readings key frames = frames.map fun frame => (frame, frame.payload) := by
  induction frames generalizing key with
  | nil => rfl
  | cons frame frames ih =>
    obtain ⟨own, spelled⟩ := Option.isSome_iff_exists.mp (masked frame (by simp))
    have whole : received key frame = frame.payload := by rw [received, spelled]
    rw [readings, whole, ih fun other member => masked other (by simp [member])]
    rfl

/-- What a listener of the connection sees of the frames, and what is sent back for each ping. -/
structure Delivered (connectionType : WebSocketConnectionType) (callbacks : WebSocketCallbacks T)
    (frames : List Frame) (out : List Event) : Prop where
  ended : endMessages out = frames.map fun frame => (frame.headerByte, frame.payload)
  reported : messages out =
    if callbacks.onMessage.isSome then frames.filterMap fun frame => reports (frame, frame.payload) else []
  answered : ∀ before ping after, frames = before ++ ping :: after → ping.kind = .ping →
    ∃ earlier later, out = earlier ++ .endMessage ping.headerByte ping.payload ::
        ((if closing ∈ earlier then [] else
          [.frame .pong (WebSocketClient.frameCalls connectionType
            [{ data := ping.payload, lifetime := .copy }] .pong)]) ++ later) ∧
      endMessages earlier = (before.map fun frame => (frame.headerByte, frame.payload)) ∧
      ∀ event ∈ later.head?, ∃ header items, event = .endMessage header items

theorem deliver_ping {session next : Session T} {ping : Frame} {out : List Event} (kind : ping.kind = .ping)
    (masked : ping.masked = true) (delivered : deliver connectionType callbacks session ping = .ok (next, out)) :
    out = .endMessage ping.headerByte ping.payload :: (if session.client.closed then [] else
      [.frame .pong (WebSocketClient.frameCalls connectionType
        [{ data := ping.payload, lifetime := .copy }] .pong)]) := by
  obtain ⟨own, spelled⟩ := Option.isSome_iff_exists.mp masked
  have whole : received session.key ping = ping.payload := by rw [received, spelled]
  rw [deliver_of_answer (answer_ping kind _ _ _), whole] at delivered
  cases delivered
  cases closed : session.client.closed <;>
    simp [WebSocketClient.pong, WebSocketClient.write, WebSocketClient.writev, closed]

theorem run_deliver_delivered {context : T} {last : Session T} {frames : List Frame} {out : List Event}
    (masked : ∀ frame ∈ frames, frame.masked = true)
    (delivered : run (deliver connectionType callbacks) { context } frames = .ok (last, out)) :
    Delivered connectionType callbacks frames out := by
  have trace := run_deliver_trace delivered
  constructor
  · rw [trace.ended, readings_masked masked, List.map_map]
    rfl
  · rw [trace.reported, readings_masked masked, List.filterMap_map]
    rfl
  · intro before ping after split kind
    subst split
    rw [run_append] at delivered
    obtain ⟨session, earlier, rest, first, others, rfl⟩ := andThen_cases delivered
    obtain ⟨next, middle, later, answered, final, rfl⟩ := andThen_cases others
    have known : ∀ frame ∈ before, frame.masked = true := fun frame member => masked frame (by simp [member])
    have opening := run_deliver_trace first
    have closed : session.client.closed = true ↔ closing ∈ earlier := by simpa using opening.closed
    refine ⟨earlier, later, ?_, ?_, (run_deliver_trace final).first⟩
    · rw [deliver_ping kind (masked ping (by simp)) answered]
      simp only [closed, List.cons_append]
    · rw [opening.ended, readings_masked known, List.map_map]
      rfl

section Cut

variable [GrowthPolicy]

end Cut

end Trace

end ZapeProof
