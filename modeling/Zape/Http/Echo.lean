import Zape.Http.Upgrade
import Zape.WebSocket.Peer

/-! The program itself: an `HttpServer` whose handler sends every WebSocket message back. -/
namespace ZapeModel

open Machine

structure HttpRequestHandler where
  foo : BitVec 32 := 42#32
  deriving DecidableEq, Repr

namespace HttpRequestHandler

def init (_ : RequestView) : HttpRequestHandler := {}

/-- A plain request is never answered. -/
def onRequest (self : HttpRequestHandler) (_ : RequestView) : HttpRequestHandler × List RequestCall × Bool :=
  (self, [], false)

def onUpradeToWebSocket (self : HttpRequestHandler) (_ : RequestView) :
    HttpRequestHandler × List RequestCall × Bool :=
  (self, [], true)

def onWebSocketMessage (self : HttpRequestHandler) (_ : WebSocketClient) (message : List Byte) :
    HttpRequestHandler × List ClientCall × Bool :=
  (self, [.write message .text .copy], false)

def handler : Handler HttpRequestHandler where
  init := init
  onRequest := some onRequest
  onUpradeToWebSocket := some onUpradeToWebSocket
  onWebSocketMessage := some onWebSocketMessage

end HttpRequestHandler

end ZapeModel

namespace ZapeProof

open Machine Zig ZapeModel ZapeModel.HttpServer

section Answers

variable {T : Type} {connectionType : WebSocketConnectionType} (callbacks : WebSocketCallbacks T)

/-- The calls that a complete frame leads to. -/
def askedBy (session : Session T) (frame : Frame) : List ClientCall :=
  match frame.kind with
  | .continuation | .text | .binary =>
    match callbacks.onMessage with
    | none => []
    | some onMessage =>
      (onMessage session.client session.context (received session.key frame) (decide (frame.kind = .binary))
        (frameState frame)).2
  | .close => [.close]
  | .ping => [.pong (received session.key frame)]
  | .pong => []

variable {callbacks}

theorem deliver_performs (session : Session T) (frame : Frame) (next : Session T) (out : List Event)
    (delivered : deliver connectionType callbacks session frame = .ok (next, out)) :
    session.client.performAll connectionType (askedBy callbacks session frame) = (next.client, out.filter sent) := by
  let decoder : WebSocketState :=
    { buffer := { items := received session.key frame }, client := session.client, frame := { header := frame.headerByte } }
  have header : decoder.frame.header = frame.headerByte := rfl
  have performed := @endMessage_performs connectionType T callbacks decoder session.context
  have calls : requests callbacks decoder session.context = askedBy callbacks session frame := by
    rw [requests, askedBy, opcode_of_header header, isBinary_of_header header rfl, frameState_of_header header]
    cases frame.kind <;> rfl
  have dispatched := @dispatch_answer T connectionType callbacks decoder frame _ header rfl rfl session.context
  rcases effects : answer connectionType callbacks frame (received session.key frame) session.client session.context
    with ⟨client, context, events⟩
  rw [deliver_of_answer effects] at delivered
  cases delivered
  rw [calls, endMessage_of_dispatch (dispatched.trans effects)] at performed
  exact performed

end Answers

section Echoes

/-- What the handler and the protocol say to a frame. -/
def echoed (frame : Frame) : List ClientCall :=
  match frame.kind with
  | .continuation | .text | .binary => [.write frame.payload .text .copy]
  | .close => [.close]
  | .ping => [.pong frame.payload]
  | .pong => []

abbrev echoing : WebSocketCallbacks HttpRequestHandler := webSocketCallbacks HttpRequestHandler.handler

theorem askedBy_echoed (session : Session HttpRequestHandler) {frame : Frame} (masked : frame.masked = true) :
    askedBy echoing session frame = echoed frame := by
  obtain ⟨own, spelled⟩ := Option.isSome_iff_exists.mp masked
  have whole : received session.key frame = frame.payload := by rw [received, spelled]
  rw [askedBy, echoed, whole]
  cases frame.kind <;> rfl

theorem collect_echoed (session : Session HttpRequestHandler) {frames : List Frame}
    (masked : ∀ frame ∈ frames, frame.masked = true) :
    collect (deliver .server echoing) (askedBy echoing) session frames = frames.flatMap echoed := by
  induction frames generalizing session with
  | nil => rfl
  | cons frame frames ih =>
    rcases effects : answer .server echoing frame (received session.key frame) session.client session.context
      with ⟨client, context, events⟩
    rw [collect_cons_ok (deliver_of_answer effects), askedBy_echoed session (masked frame (by simp)),
      ih _ fun other member => masked other (by simp [member]), List.flatMap_cons]

/-- The frames in front of the first that closes the connection. -/
def heard (frames : List Frame) : List Frame := frames.takeWhile fun frame => frame.kind ≠ .close

def echoFrame (frame : Frame) : List WireFrame :=
  match frame.kind with
  | .continuation | .text | .binary => [(0x81#8, frame.payload)]
  | .ping => [(0x8A#8, frame.payload)]
  | .close | .pong => []

theorem echoed_close {frame : Frame} (close : frame.kind = .close) : echoed frame = [.close] := by
  rw [echoed, close]

theorem echoed_open {frame : Frame} (noClose : frame.kind ≠ .close) :
    .close ∉ echoed frame ∧ (echoed frame).map callFrame = echoFrame frame := by
  have data : gathered [⟨frame.payload, .copy⟩] = frame.payload := List.flatMap_singleton _ _
  cases kind : frame.kind <;> simp_all [echoed, echoFrame, callFrame, slices, frameOpcode, OpCode.toInt]

theorem spoken_open {calls : List ClientCall} (noClose : .close ∉ calls) (later : List ClientCall) :
    spoken (calls ++ later) = calls ++ spoken later := by
  rw [spoken, spoken, List.takeWhile_append_of_pos]
  intro call member
  rw [decide_eq_true_eq]
  rintro rfl
  exact noClose member

theorem spoken_echoed (frames : List Frame) :
    (spoken (frames.flatMap echoed)).map callFrame = (heard frames).flatMap echoFrame := by
  induction frames with
  | nil => rfl
  | cons frame frames ih =>
    rw [List.flatMap_cons]
    by_cases close : frame.kind = .close
    · simp [echoed_close close, spoken, heard, close]
    · obtain ⟨noClose, words⟩ := echoed_open close
      rw [spoken_open noClose, List.map_append, words, ih, heard, heard, List.takeWhile_cons_of_pos (by simp [close]),
        List.flatMap_cons]

theorem close_echoed (frames : List Frame) :
    .close ∈ frames.flatMap echoed ↔ ∃ frame ∈ frames, frame.kind = .close := by
  rw [List.mem_flatMap]
  apply exists_congr
  intro frame
  apply and_congr_right
  intro _
  by_cases close : frame.kind = .close
  · simp [echoed_close close, close]
  · simp [(echoed_open close).1, close]

theorem echoed_fits {frames : List Frame} (fits : ∀ frame ∈ frames, frame.payload.length ≤ 0xFFFFFFFF) :
    ∀ call ∈ spoken (frames.flatMap echoed), (gathered (slices call)).length ≤ 0xFFFFFFFF := by
  intro call member
  obtain ⟨frame, among, asked⟩ := List.mem_flatMap.mp ((List.takeWhile_prefix _).subset member)
  have bound := fits frame among
  have data : gathered [⟨frame.payload, .copy⟩] = frame.payload := List.flatMap_singleton _ _
  unfold echoed at asked
  cases kind : frame.kind <;> rw [kind] at asked <;> simp_all [slices, gathered]

end Echoes

section Connection

def httpTransported (events : List HttpEvent) : List TransportCall :=
  events.flatMap fun
    | .transport call => [call]
    | .webSocket event => transported [event]
    | .onRequest _ | .failed _ => []

theorem httpTransported_append (left right : List HttpEvent) :
    httpTransported (left ++ right) = httpTransported left ++ httpTransported right := List.flatMap_append

theorem httpTransported_calls (calls : List TransportCall) : httpTransported (calls.map .transport) = calls := by
  rw [httpTransported, List.flatMap_map]
  exact List.flatMap_singleton' calls

theorem httpTransported_webSocket (events : List Event) :
    httpTransported (events.map .webSocket) = transported events := by
  induction events with
  | nil => rfl
  | cons event events ih =>
    have first : transported (event :: events) = transported [event] ++ transported events := transported_append [event] events
    rw [first, ← ih]
    rfl

variable [Llhttp] [GrowthPolicy]

/-- A request that comes in any number of reads leaves the parser paused, with all of it collected. -/
theorem upgrade_reached {T : Type} {handler : Handler T} {bytes : List Byte} {content : RequestContent}
    (pauses : Llhttp.PausesAfter bytes content) {pieces : List (List Byte)} {rest : List Byte}
    (nonempty : ∀ piece ∈ pieces, piece ≠ []) (cut : pieces.flatten ++ rest = bytes) (more : rest ≠ [])
    (body : BodyAccepted (storeHeaders {} content.headers) content.body) (extra : List Byte) :
    ∃ asking parsed : HttpRequestCtx T, run (ondata handler) ({} : HttpRequestCtx T) pieces = .ok (asking, []) ∧
      asking.websocketState = none ∧ asking.llhttpExecute (rest ++ extra) = (parsed, .pausedUpgrade) ∧
      parsed.allocator = {} ∧ parsed.view = RequestContent.view content := by
  obtain ⟨reported, early, late, middle, next, continues, ran, calls, rfl, incomplete⟩ :=
    pauses pieces rest extra nonempty cut more
  rcases takeAll_init reported with ⟨-, after, taken, adds⟩ | ⟨refused, -⟩
  · rw [← calls, Collected.takeAll_append] at taken
    obtain ⟨between, first, later⟩ := Option.bind_eq_some_iff.mp taken
    have undone : between.done = false := by simpa [incomplete] using (takeAll_url_done first).2
    obtain ⟨asking, silent, receiving, -⟩ :=
      @reads_cont T _ _ handler _ _ _ _ _ _ _ receives_init continues first undone
    obtain ⟨parsed, executed, -, holds, -⟩ := execute_some receiving ran later
    exact ⟨asking, parsed, silent, receiving.websocketState, executed, holds.allocator, (holds_view holds).trans adds.view⟩
  · exact absurd body refused

omit [GrowthPolicy] in
theorem upgrade_echoing {request : HttpRequestCtx HttpRequestHandler} (granting : request.allocator = {})
    {key : List Byte} (header : request.view.headers.get (text "sec-websocket-key") = some key) (fits : key.length ≤ 28) :
    ∃ last, websocketUpgrade HttpRequestHandler.handler request =
        .ok ((last, none), (switchingProtocols key).map .transport) ∧
      last.websocketState = some {} ∧ last.userCtx = some {} := by
  let created : HttpRequestCtx HttpRequestHandler := { request with userCtx := some {} }
  have memory : (created.allocator.allocate 1).1 = true := by
    show (request.allocator.allocate 1).1 = true
    rw [granting, Allocator.allocate_granting]
  have accepted := @acceptWebSocket_agrees HttpRequestHandler _ created key header fits memory
  let accepting : HttpRequestCtx HttpRequestHandler :=
    { created with allocator := (created.allocator.allocate 1).2, websocketState := some {} }
  refine ⟨accepting, ?_, rfl, rfl⟩
  have made := @createHandler_granting HttpRequestHandler _ HttpRequestHandler.handler request granting
  have asking : ({ request with userCtx := some {} } : HttpRequestCtx HttpRequestHandler).performAll [] = (created, []) := rfl
  rw [websocketUpgrade, made]
  simp only [HttpRequestHandler.handler, HttpRequestHandler.onUpradeToWebSocket, HttpRequestHandler.init, asking, accepted]
  rfl

theorem echo_frames {request : HttpRequestCtx HttpRequestHandler} (websocket : request.websocketState = some {})
    (created : request.userCtx = some {}) {frames : List Frame} (masked : ∀ frame ∈ frames, frame.masked = true)
    {reads : List (List Byte)} (cut : reads.flatten = frames.flatMap Frame.wire) :
    ∃ last out, run (ondata HttpRequestHandler.handler) request reads = .ok (last, out) ∧
      httpTransported out = saying .server (frames.flatMap echoed) := by
  obtain ⟨⟨last, context⟩, sessionLast, out, decoded, delivered, -⟩ :=
    @reads_deliver HttpRequestHandler .server echoing _ _ _ (between_fresh {}) frames fun frame member =>
      .inl (masked frame member)
  rw [← cut] at decoded
  obtain ⟨reached, read⟩ := websocket_reads websocket created ((run_flatten _ _ _).trans decoded)
  refine ⟨reached, _, read, ?_⟩
  have performed := run_performs (fun session => session.client) _ deliver_performs delivered
  rw [collect_echoed _ masked] at performed
  have speaks := @performAll_speaks .server {} rfl (frames.flatMap echoed)
  rw [performed] at speaks
  rw [httpTransported_webSocket, ← transported_sent, speaks]

end Connection

end ZapeProof
