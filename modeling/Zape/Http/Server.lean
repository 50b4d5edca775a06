import Zape.Http.Request
import Zape.WebSocket.Accept

/-! `HttpServer(T)`: what it does with the data of a connection. -/
namespace ZapeModel

open Machine Zig

/-- The functions of `T`. The last component says whether `onRequest` or `onWebSocketMessage` returned an
    error, and whether `onUpradeToWebSocket` agreed. -/
structure Handler (T : Type) where
  init : RequestView → T
  onRequest : Option (T → RequestView → T × List RequestCall × Bool) := none
  onUpradeToWebSocket : Option (T → RequestView → T × List RequestCall × Bool) := none
  onWebSocketMessage : Option (T → WebSocketClient → List Byte → T × List ClientCall × Bool) := none
  onUpgradedToWebSocket : Option (T → WebSocketClient → T × List ClientCall) := none

inductive ServerError
  | httpParseError
  | httpUnsupportedWebSocket
  | outOfMemory
  | handler
  deriving DecidableEq, Repr

inductive HttpEvent
  | onRequest (view : RequestView)
  | transport (call : TransportCall)
  | webSocket (event : Event)
  | failed (error : ServerError)

namespace HttpServer

variable {T : Type} [Llhttp] [GrowthPolicy] (handler : Handler T)

/-- `onwsmessage`: a handler that fails closes the connection. -/
def webSocketCallbacks : WebSocketCallbacks T where
  onMessage := handler.onWebSocketMessage.map fun onFrame client context message _ _ =>
    match onFrame context client message with
    | (context, calls, failed) => (context, if failed then calls ++ [.close] else calls)

def acceptWebSocket (request : HttpRequestCtx T) : Except Panic ((HttpRequestCtx T × Bool) × List TransportCall) :=
  match request.headers.get (text "sec-websocket-key") with
  | none => .ok ((request, false), [])
  | some wskey =>
    match getB64AcceptKey wskey with
    | .error _ => .error (.message "OOM")
    | .ok b64key =>
      match request.allocator.allocate 1 with
      | (false, _) => .error (.message "OOM")
      | (true, allocator) =>
        .ok (({ request with allocator, websocketState := some {} }, true),
          [.tcpBufferStart,
            .write wsHardcodedHeader .static,
            .write (text "Sec-WebSocket-Accept: ") .static,
            .write b64key .copy,
            .write (text "\r\nSec-WebSocket-Origin: 127.0.0.1\r\n\r\n") .static,
            .tcpBufferEnd])

/-- `ctx.* = T.init(...)` and the call that follows it, in both branches of `ondata` that make a handler. -/
def createHandler (request : HttpRequestCtx T) : HttpRequestCtx T × Option T :=
  match request.allocator.allocate 1 with
  | (false, allocator) => ({ request with allocator }, none)
  | (true, allocator) =>
    let userctx := handler.init request.view
    ({ request with allocator, userCtx := some userctx }, some userctx)

/-- `onUpgradedToWebSocket` gets the client of the new decoder. -/
def upgraded (request : HttpRequestCtx T) (userctx : T) : HttpRequestCtx T × List HttpEvent :=
  match handler.onUpgradedToWebSocket, request.websocketState with
  | some onUpgraded, some websocketState =>
    let (userctx, calls) := onUpgraded userctx websocketState.client
    let (client, events) := websocketState.client.performAll .server calls
    ({ request with websocketState := some { websocketState with client }, userCtx := some userctx },
      events.map .webSocket)
  | _, _ => (request, [])

/-- The branch of `ondata` for `.websocket_upgrade`. -/
def websocketUpgrade (request : HttpRequestCtx T) :
    Except Panic ((HttpRequestCtx T × Option ServerError) × List HttpEvent) :=
  match handler.onUpradeToWebSocket, handler.onWebSocketMessage with
  | some onUprade, some _ =>
    match createHandler handler request with
    | (request, none) => .ok ((request, some .outOfMemory), [])
    | (request, some userctx) =>
      let (userctx, calls, agreed) := onUprade userctx request.view
      let (request, written) := { request with userCtx := some userctx }.performAll calls
      if !agreed then .ok ((request, some .httpUnsupportedWebSocket), written.map .transport)
      else match acceptWebSocket request with
        | .error panic => .error panic
        | .ok ((request, false), more) =>
          .ok ((request, some .httpUnsupportedWebSocket), (written ++ more).map .transport)
        | .ok ((request, true), more) =>
          let (request, events) := upgraded handler request userctx
          .ok ((request, none), (written ++ more).map .transport ++ events)
  | _, _ => .ok ((request, some .httpUnsupportedWebSocket), [])

/-- The branch of `ondata` for `.done`. -/
def requestDone (request : HttpRequestCtx T) : (HttpRequestCtx T × Option ServerError) × List HttpEvent :=
  match createHandler handler request with
  | (request, none) => ((request, some .outOfMemory), [])
  | (request, some userctx) =>
    match handler.onRequest with
    | none => ((request, none), [])
    | some onRequest =>
      let view := request.view
      let (userctx, calls, failed) := onRequest userctx view
      let (request, written) := { request with userCtx := some userctx }.performAll calls
      ((request, if failed then some .handler else none), .onRequest view :: written.map .transport)

def ondataBody (request : HttpRequestCtx T) (data : List Byte) :
    Except Panic ((HttpRequestCtx T × Option ServerError) × List HttpEvent) :=
  match request.websocketState, request.userCtx with
  | some _, none => .error (.message "attempt to use null value")
  | some wsnew, some userctx =>
    match WebSocketState.processData .server (webSocketCallbacks handler) (wsnew, userctx) data with
    | .error panic => .error panic
    | .ok ((wsnew, userctx), events) =>
      .ok (({ request with websocketState := some wsnew, userCtx := some userctx }, none), events.map .webSocket)
  | none, _ =>
    match request.clientOnhttpdata data with
    | (request, .parseError _) => .ok ((request, some .httpParseError), [])
    | (request, .websocketUpgrade) => websocketUpgrade handler request
    | (request, .done) => .ok (requestDone handler request)
    | (request, .cont) => .ok ((request, none), [])

/-- `errdefer`: whatever the error is, it is answered with 400 and a close, unless there was a response. -/
def ondata : Transition Panic (HttpRequestCtx T) (List Byte) HttpEvent
  | request, data =>
    match ondataBody handler request data with
    | .error panic => .error panic
    | .ok ((request, none), events) => .ok (request, events)
    | .ok ((request, some error), events) =>
      let (request, written) := request.response 400#16 [] true
      .ok (request, events ++ written.map .transport ++ [.failed error])

/-- What can happen on a connection. A handler may keep the request, or the client of its WebSocket, and call them
    outside of a read. -/
inductive HttpActivity
  | read (data : List Byte)
  | call (call : RequestCall)
  | webSocket (calls : List ClientCall)

def activity : Transition Panic (HttpRequestCtx T) HttpActivity HttpEvent
  | request, .read data => ondata handler request data
  | request, .call call =>
    let (request, written) := request.perform call
    .ok (request, written.map .transport)
  | request, .webSocket calls =>
    match request.websocketState with
    | none => .ok (request, [])
    | some websocketState =>
      let (client, events) := websocketState.client.performAll .server calls
      .ok ({ request with websocketState := some { websocketState with client } }, events.map .webSocket)

end HttpServer

end ZapeModel
