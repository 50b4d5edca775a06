import Zape.Http.Parser
import Zape.Network.Client
import Zape.WebSocket.State
import Zape.Zig.Text

/-! `HttpRequestCtx`: what the parser's callbacks collect for a connection, and the response to it. -/
namespace ZapeModel

open Machine Zig

def maxBodyLen : Nat := 1024 * 1024 * 4

structure HeadersState where
  accField : ArrayList Byte := {}
  accValue : ArrayList Byte := {}
  accUrl : ArrayList Byte := {}
  accBody : ArrayList Byte := {}

/-- The lists that `http_on_parse_header_data` fills. -/
inductive HeaderData
  | accUrl
  | accField
  | accValue
  deriving DecidableEq, Repr

def HeadersState.list (state : HeadersState) : HeaderData → ArrayList Byte
  | .accUrl => state.accUrl
  | .accField => state.accField
  | .accValue => state.accValue

def HeadersState.setList (state : HeadersState) (list : ArrayList Byte) : HeaderData → HeadersState
  | .accUrl => { state with accUrl := list }
  | .accField => { state with accField := list }
  | .accValue => { state with accValue := list }

/-- `allocator` stands for the arena too: it answers all requests of the connection in their order. -/
structure HttpRequestCtx (T : Type) [Llhttp] where
  state : LlhttpState := { current := Llhttp.init }
  headers : StringHashMap (List Byte) := {}
  done : Bool := false
  responded : Bool := false
  allocator : Allocator := {}
  headersState : HeadersState := {}
  websocketState : Option WebSocketState := none
  userCtx : Option T := none

inductive ParseReturnState
  | cont
  | done
  | websocketUpgrade
  | parseError (errno : Errno)

/-- What a handler can learn about the request. -/
structure RequestView where
  url : Option (List Byte)
  headers : StringHashMap (List Byte)
  body : List Byte

/-- The calls a handler makes on the request and on its client. -/
inductive RequestCall
  | response (code : BitVec 16) (data : List Byte) (close : Bool)
  | write (data : List Byte) (lifetime : DataLifetime)
  | close (action : ShutdownAction)

def statusText (code : BitVec 16) : List Byte :=
  text <| match code.toNat with
    | 100 => "Continue"
    | 101 => "Switching Protocols"
    | 200 => "OK"
    | 201 => "Created"
    | 202 => "Accepted"
    | 204 => "No Content"
    | 301 => "Moved Permanently"
    | 302 => "Found"
    | 304 => "Not Modified"
    | 400 => "Bad Request"
    | 401 => "Unauthorized"
    | 403 => "Forbidden"
    | 404 => "Not Found"
    | 405 => "Method Not Allowed"
    | 409 => "Conflict"
    | 418 => "I'm a teapot"
    | 429 => "Too Many Requests"
    | 500 => "Internal Server Error"
    | 501 => "Not Implemented"
    | 502 => "Bad Gateway"
    | 503 => "Service Unavailable"
    | _ => "Unknown Status"

def responseHead (code : BitVec 16) (dataLen : Nat) : List Byte :=
  text "HTTP/1.1 " ++ fmt.decimal code.toNat ++ text " " ++ statusText code ++ text "\r\nContent-Length: " ++
    fmt.decimal dataLen ++ text "\r\n\r\n"

namespace HttpRequestCtx

variable {T : Type} [Llhttp]

def appendBody (request : HttpRequestCtx T) (data : List Byte) : HttpRequestCtx T × Int :=
  let acc := request.headersState.accBody
  if acc.items.length + data.length > acc.capacity then (request, -1)
  else
    let accBody := { acc with items := acc.items ++ data }
    ({ request with headersState := { request.headersState with accBody } }, 0)

def getURL (request : HttpRequestCtx T) : Option (List Byte) :=
  if request.done then some request.headersState.accUrl.items else none

def getBody (request : HttpRequestCtx T) : List Byte := request.headersState.accBody.items

def view (request : HttpRequestCtx T) : RequestView :=
  { url := request.getURL, headers := request.headers, body := request.getBody }

/-- The head goes through a buffer of 256 bytes, and nothing is written when it does not fit. -/
def response (request : HttpRequestCtx T) (code : BitVec 16) (data : List Byte) (close : Bool) :
    HttpRequestCtx T × List TransportCall :=
  if request.responded then (request, [])
  else
    let ret := responseHead code data.length
    let written :=
      if 256 < ret.length then []
      else .write ret .copy :: (if data.length > 0 then [.write data .copy] else []) ++
        if close then [.close .queue] else []
    ({ request with responded := true }, .tcpBufferStart :: written ++ [.tcpBufferEnd])

def perform (request : HttpRequestCtx T) : RequestCall → HttpRequestCtx T × List TransportCall
  | .response code data close => request.response code data close
  | .write data lifetime => (request, [.write data lifetime])
  | .close action => (request, [.close action])

def performAll (request : HttpRequestCtx T) : List RequestCall → HttpRequestCtx T × List TransportCall
  | [] => (request, [])
  | call :: calls =>
    let (next, done) := request.perform call
    let (last, rest) := next.performAll calls
    (last, done ++ rest)

variable [GrowthPolicy]

def httpOnBody (request : HttpRequestCtx T) (data : List Byte) : HttpRequestCtx T × Int :=
  if request.headersState.accBody.capacity = 0 then
    match request.headers.get (text "content-length") with
    | none => request.appendBody data
    | some cl =>
      match fmt.parseInt (2 ^ 32) cl with
      | none => (request, -1)
      | some clInt =>
        if clInt > maxBodyLen then (request, -1)
        else match request.headersState.accBody.reserve request.allocator clInt with
          | (none, allocator) => ({ request with allocator }, -1)
          | (some accBody, allocator) =>
            { request with allocator, headersState := { request.headersState with accBody } }.appendBody data
  else request.appendBody data

def httpOnParseHeaderData (field : HeaderData) (request : HttpRequestCtx T) (data : List Byte) :
    HttpRequestCtx T × Int :=
  match (request.headersState.list field).reserve request.allocator 32 with
  | (none, allocator) => ({ request with allocator }, -1)
  | (some list, allocator) =>
    match list.reserve allocator (list.items.length + data.length) with
    | (none, allocator) =>
      ({ request with allocator, headersState := request.headersState.setList list field }, -1)
    | (some list, allocator) =>
      ({ request with allocator, headersState := request.headersState.setList (list.appendSlice data) field }, 0)

/-- When memory is short the header is dropped, and what was collected for it stays. -/
def httpOnHeaderValueComplete (request : HttpRequestCtx T) : HttpRequestCtx T × Int :=
  let field := request.headersState.accField
  let value := request.headersState.accValue
  match request.allocator.allocate field.items.length with
  | (false, allocator) => ({ request with allocator }, 0)
  | (true, allocator) =>
    match allocator.allocate value.items.length with
    | (false, allocator) => ({ request with allocator }, 0)
    | (true, allocator) =>
      -- `put` may have to grow the table
      match allocator.allocate 1 with
      | (false, allocator) => ({ request with allocator }, 0)
      | (true, allocator) =>
        ({ request with
            allocator
            headers := request.headers.put (ascii.lowerString field.items) value.items
            headersState := { request.headersState with
              accField := field.resizeToZero, accValue := value.resizeToZero } }, 0)

def httpOnMessageComplete (request : HttpRequestCtx T) : HttpRequestCtx T × Int :=
  ({ request with done := true }, 0)

/-- `http_parser_settings`. -/
def callback (request : HttpRequestCtx T) : Callback → HttpRequestCtx T × Int
  | .url span => request.httpOnParseHeaderData .accUrl span
  | .headerField span => request.httpOnParseHeaderData .accField span
  | .headerValue span => request.httpOnParseHeaderData .accValue span
  | .headerFieldComplete => (request, 0)
  | .headerValueComplete => request.httpOnHeaderValueComplete
  | .headersComplete => (request, 0)
  | .body span => request.httpOnBody span
  | .messageComplete => request.httpOnMessageComplete

/-- The callbacks in their order, up to the first that does not return zero. -/
def callbacks (request : HttpRequestCtx T) : List Callback → HttpRequestCtx T × Int
  | [] => (request, 0)
  | call :: calls =>
    match request.callback call with
    | (request, code) => if code = 0 then request.callbacks calls else (request, code)

/-- An error of the parser lingers, and so does `HPE_USER` when a span callback returns -1. -/
def llhttpExecute (request : HttpRequestCtx T) (data : List Byte) : HttpRequestCtx T × Errno :=
  if request.state.error ≠ .ok then (request, request.state.error)
  else
    let (current, calls, errno) := Llhttp.run request.state.current data
    match request.callbacks calls with
    | (request, code) =>
      let error := if code = 0 then errno else .user
      ({ request with state := { current, error } }, error)

/-- Where the parser stopped inside `data` is not looked at. -/
def clientOnhttpdata (request : HttpRequestCtx T) (data : List Byte) : HttpRequestCtx T × ParseReturnState :=
  match request.llhttpExecute data with
  | (request, errno) =>
    match errno with
    | .ok => (request, if request.done then .done else .cont)
    | .pausedUpgrade => (request, .websocketUpgrade)
    | errno => (request, .parseError errno)

end HttpRequestCtx

end ZapeModel
