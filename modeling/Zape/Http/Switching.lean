import Zape.Http.Failing
import Zape.Http.Upgrade

/-! Which requests switch a connection to a WebSocket, and how the others are answered. -/
namespace ZapeModel

open Machine Zig

def httpGet : BitVec 8 := 1#8
def httpConnect : BitVec 8 := 5#8

def fConnectionUpgrade : BitVec 16 := 0x4#16
def fUpgrade : BitVec 16 := 0x10#16

/-- What `llhttp_t` holds of the head of a request. -/
structure LlhttpFields where
  method : BitVec 8
  flags : BitVec 16

/-- `parser->upgrade` as `llhttp__before_headers_complete` sets it for a request; with it the parser pauses. -/
def llhttpBeforeHeadersComplete (parser : LlhttpFields) : Bool :=
  if parser.flags &&& fUpgrade ≠ 0#16 ∧ parser.flags &&& fConnectionUpgrade ≠ 0#16 then true
  else parser.method == httpConnect

/-- The headers that some callbacks report, with what was reported of the next one before. -/
def reportedHeaders (field value : List Byte) : List Callback → List (List Byte × List Byte)
  | [] => []
  | .headerField span :: calls => reportedHeaders (field ++ span) value calls
  | .headerValue span :: calls => reportedHeaders field (value ++ span) calls
  | .headerValueComplete :: calls => (field, value) :: reportedHeaders [] [] calls
  | _ :: calls => reportedHeaders field value calls

def isBlank (byte : Byte) : Bool := byte == 0x20#8 || byte == 0x09#8

/-- The value of an `Upgrade` header is a list of protocols, each a name and perhaps a version. -/
def namesWebSocket (value : List Byte) : Bool :=
  (value.splitOn 0x2C#8).any fun protocol =>
    ascii.lowerString ((protocol.dropWhile isBlank).takeWhile fun byte => !isBlank byte && byte != 0x2F#8) ==
      text "websocket"

structure RequestHead where
  method : BitVec 8
  headers : List (List Byte × List Byte)

def RequestHead.asksWebSocket (head : RequestHead) : Bool :=
  head.method == httpGet &&
    head.headers.any fun (name, value) => ascii.lowerString name == text "upgrade" && namesWebSocket value

example : (RequestHead.mk httpGet [(text "Upgrade", text "h2c, WebSocket/13")]).asksWebSocket = true := by decide

end ZapeModel

namespace ZapeProof

open Machine Zig ZapeModel ZapeModel.HttpServer

section Head

theorem reportedHeaders_silent {calls : List Callback} (field value : List Byte) (rest : List Callback)
    (silent : ∀ call ∈ calls, (∃ span, call = .url span) ∨ (∃ span, call = .body span) ∨ call = .headersComplete ∨
      call = .messageComplete) :
    reportedHeaders field value (calls ++ rest) = reportedHeaders field value rest := by
  induction calls with
  | nil => rfl
  | cons call calls ih =>
    have later := ih fun other member => silent other (List.mem_cons_of_mem _ member)
    rcases silent call List.mem_cons_self with ⟨span, rfl⟩ | ⟨span, rfl⟩ | rfl | rfl <;> exact later

theorem reportedHeaders_field (field value : List Byte) (spans : List (List Byte)) (rest : List Callback) :
    reportedHeaders field value (spans.map .headerField ++ rest) =
      reportedHeaders (field ++ spans.flatten) value rest := by
  induction spans generalizing field with
  | nil => simp
  | cons span spans ih =>
    rw [List.map_cons, List.cons_append, reportedHeaders, ih, List.flatten_cons, List.append_assoc]

theorem reportedHeaders_value (field value : List Byte) (spans : List (List Byte)) (rest : List Callback) :
    reportedHeaders field value (spans.map .headerValue ++ rest) =
      reportedHeaders field (value ++ spans.flatten) rest := by
  induction spans generalizing value with
  | nil => simp
  | cons span spans ih =>
    rw [List.map_cons, List.cons_append, reportedHeaders, ih, List.flatten_cons, List.append_assoc]

theorem reportedHeaders_headers (headers : List ReportedHeader) (rest : List Callback) :
    reportedHeaders [] [] (headers.flatMap ReportedHeader.calls ++ rest) =
      headers.map (fun header => (header.field.flatten, header.value.flatten)) ++ reportedHeaders [] [] rest := by
  induction headers with
  | nil => rfl
  | cons header headers ih =>
    simp only [List.flatMap_cons, ReportedHeader.calls, List.append_assoc, List.cons_append, reportedHeaders_field,
      reportedHeaders, reportedHeaders_value, List.nil_append, ih, List.map_cons]

theorem reportedHeaders_reported (reported : ReportedRequest) :
    reportedHeaders [] [] reported.calls = reported.meaning.headers := by
  simp only [ReportedRequest.calls, ReportedRequest.head, List.append_assoc, List.cons_append]
  rw [reportedHeaders_silent [] [] _ (by simp), reportedHeaders_headers]
  rw [reportedHeaders, reportedHeaders_silent [] [] _ (by simp)]
  · simp [reportedHeaders, ReportedRequest.meaning]
  all_goals simp

end Head

section Answer

/-- The head of the response that is written: of the bytes between `tcpBufferStart` and `tcpBufferEnd`, the first
    that are written. -/
def answerHead : List HttpEvent → Option (List Byte)
  | .transport .tcpBufferStart :: .transport (.write head _) :: _ => some head
  | _ :: events => answerHead events
  | [] => none

/-- The response that some calls lead to: the first one, if there was none before and its head fits. -/
def answerTo : Bool → List RequestCall → Option (List Byte)
  | _, [] => none
  | responded, .response code data _ :: calls =>
    let head := responseHead code data.length
    if !responded && decide (head.length ≤ 256) then some head else answerTo true calls
  | responded, .write _ _ :: calls | responded, .close _ :: calls => answerTo responded calls

def IsErrorHead (head : Option (List Byte)) : Prop :=
  ∃ code length, 400 ≤ BitVec.toNat code ∧ BitVec.toNat code < 600 ∧ head = some (responseHead code length)

theorem answerTo_responded (calls : List RequestCall) : answerTo true calls = none := by
  induction calls with
  | nil => rfl
  | cons call calls ih => cases call <;> exact ih

theorem answerTo_append (responded : Bool) (left right : List RequestCall) :
    answerTo responded (left ++ right) =
      (answerTo responded left).or (answerTo (responded || left.any isResponse) right) := by
  induction left generalizing responded with
  | nil => simp [answerTo]
  | cons call left ih =>
    cases call with
    | response code data close =>
      simp only [List.cons_append, answerTo, ih, answerTo_responded, List.any_cons, isResponse]
      split <;> simp [answerTo_responded]
    | write | close => simpa [answerTo, isResponse] using ih responded

variable {T : Type} [Llhttp]

theorem answerHead_response (request : HttpRequestCtx T) (code : BitVec 16) (data : List Byte) (close : Bool)
    (rest : List HttpEvent) :
    answerHead ((request.response code data close).2.map .transport ++ rest) =
      (answerTo request.responded [.response code data close]).or (answerHead rest) := by
  unfold HttpRequestCtx.response
  cases request.responded with
  | true => simp [answerTo]
  | false =>
    by_cases long : 256 < (responseHead code data.length).length
    · have short : ¬ (responseHead code data.length).length ≤ 256 := by omega
      simp [answerTo, long, short, answerHead]
    · have short : (responseHead code data.length).length ≤ 256 := by omega
      simp [answerTo, long, short, answerHead]

theorem answerHead_performAll (request : HttpRequestCtx T) (calls : List RequestCall) (rest : List HttpEvent) :
    answerHead ((request.performAll calls).2.map .transport ++ rest) =
      (answerTo request.responded calls).or (answerHead rest) := by
  induction calls generalizing request with
  | nil => rfl
  | cons call calls ih =>
    have later := ih (request.perform call).1
    have tallied := (perform_tallied request call).responded
    rw [HttpRequestCtx.performAll]
    dsimp only
    rw [List.map_append, List.append_assoc]
    cases call with
    | response code data close =>
      rw [show request.perform (.response code data close) = request.response code data close from rfl] at *
      rw [answerHead_response, later, tallied]
      have whole := answerTo_append request.responded [.response code data close] calls
      rw [List.singleton_append] at whole
      rw [whole, Option.or_assoc]
    | write | close => simpa [HttpRequestCtx.perform, answerHead, answerTo, isResponse] using later

end Answer

section Switch

variable {T : Type} [Llhttp] {handler : Handler T} {request next : HttpRequestCtx T}

/-- Whether the handler agrees to an upgrade and the request has a key for it. -/
def accepts (handler : Handler T) (request : HttpRequestCtx T) : Bool :=
  match handler.onUpradeToWebSocket, handler.onWebSocketMessage, createHandler handler request with
  | some onUprade, some _, (request, some userctx) =>
    (onUprade userctx request.view).2.2 && (request.headers.get (text "sec-websocket-key")).isSome
  | _, _, _ => false

theorem createHandler_request (handler : Handler T) (request : HttpRequestCtx T) :
    ∃ allocator userCtx, (createHandler handler request).1 = { request with allocator, userCtx } := by
  unfold createHandler
  split <;> exact ⟨_, _, rfl⟩

theorem acceptWebSocket_switches {accepted : Bool} {written : List TransportCall}
    (accept : acceptWebSocket request = .ok ((next, accepted), written)) :
    accepted = (request.headers.get (text "sec-websocket-key")).isSome ∧
      (accepted = true → .write wsHardcodedHeader .static ∈ written) := by
  unfold acceptWebSocket at accept
  split at accept
  · rename_i missing
    cases accept
    exact ⟨by rw [missing]; rfl, by simp⟩
  · rename_i key
    split at accept
    · cases accept
    · split at accept
      · cases accept
      · cases accept
        exact ⟨by rw [key]; rfl, by simp⟩

/-- Either the connection is switched, or what the handler called is all that happens. -/
theorem websocketUpgrade_cases (http : request.websocketState = none) {failure : Option ServerError}
    {events : List HttpEvent} (upgrade : websocketUpgrade handler request = .ok ((next, failure), events)) :
    (accepts handler request = true ∧ failure = none ∧ next.websocketState ≠ none ∧
        .transport (.write wsHardcodedHeader .static) ∈ events) ∨
      (accepts handler request = false ∧ failure ≠ none ∧ next.websocketState = none ∧
        next.responded = (request.responded || (upgradeCalls handler request).any isResponse) ∧
        ∀ rest, answerHead (events ++ rest) =
          (answerTo request.responded (upgradeCalls handler request)).or (answerHead rest)) := by
  obtain ⟨allocator, userCtx, created⟩ := createHandler_request handler request
  unfold websocketUpgrade at upgrade
  unfold accepts upgradeCalls
  split at upgrade
  · rename_i onUprade _ agrees listens
    rw [agrees, listens]
    rcases made : createHandler handler request with ⟨fresh, userctx⟩
    rw [made] at upgrade created
    dsimp only at created
    cases userctx with
    | none =>
      cases upgrade
      rw [created]
      exact .inr ⟨rfl, by simp, http, (Bool.or_false _).symm, fun _ => rfl⟩
    | some userctx =>
      rcases called : onUprade userctx fresh.view with ⟨kept, calls, agreed⟩
      let current : HttpRequestCtx T := { fresh with userCtx := some kept }
      have tallied := (performAll_tallied current calls).responded
      have head := answerHead_performAll current calls
      obtain ⟨responded, same⟩ := performAll_kept current calls
      have before : current.responded = request.responded := by simp only [current, created]
      rw [before] at tallied head
      have silent : (current.performAll calls).1.websocketState = none := by
        rw [same]
        simp only [current, created]
        exact http
      rcases performed : current.performAll calls with ⟨answering, written⟩
      rw [performed] at tallied head silent same
      simp only [called, current, performed] at upgrade ⊢
      cases agreed with
      | false =>
        cases upgrade
        exact .inr ⟨rfl, by simp, silent, tallied, head⟩
      | true =>
        simp only [Bool.not_true, Bool.false_eq_true, if_false] at upgrade
        split at upgrade
        · cases upgrade
        · rename_i refused more accept
          have key := (acceptWebSocket_switches accept).1
          obtain ⟨-, rfl, rfl⟩ | ⟨absurd, -⟩ := acceptWebSocket_cases accept
          · cases upgrade
            rw [List.append_nil]
            refine .inr ⟨?_, by simp, silent, tallied, head⟩
            dsimp only at same
            rw [same] at key
            exact key.symm
          · cases absurd
        · rename_i switched more accept
          obtain ⟨key, response⟩ := acceptWebSocket_switches accept
          obtain ⟨absurd, -, -⟩ | ⟨-, opened⟩ := acceptWebSocket_cases accept
          · cases absurd
          · have stays := @upgraded_websocketState _ _ handler _ opened kept
            cases upgrade
            refine .inl ⟨?_, rfl, stays, ?_⟩
            · dsimp only at same
              rw [same] at key
              exact key.symm
            · exact List.mem_append_left _ (List.mem_map_of_mem (List.mem_append_right _ (response rfl)))
  · cases upgrade
    rename_i lacking
    have uncalled : accepts handler request = false ∧ upgradeCalls handler request = [] := by
      unfold accepts upgradeCalls
      cases agrees : handler.onUpradeToWebSocket with
      | none => exact ⟨rfl, rfl⟩
      | some onUprade =>
        cases listens : handler.onWebSocketMessage with
        | none => exact ⟨rfl, rfl⟩
        | some onFrame => exact absurd listens (lacking _ _ agrees)
    unfold accepts upgradeCalls at uncalled
    rw [uncalled.1, uncalled.2]
    exact .inr ⟨rfl, by simp, http, (Bool.or_false _).symm, fun _ => rfl⟩

variable [GrowthPolicy] {collected : HttpRequestCtx T} {data : List Byte} {out : List HttpEvent}

/-- What the parser reports in a read; once it has stopped it reports nothing. -/
def reportedNow (request : HttpRequestCtx T) (data : List Byte) : List Callback :=
  if request.state.error ≠ .ok then [] else (Llhttp.run request.state.current data).2.1

/-- The head of the request that the parser pauses for: of its callbacks some were made in reads before. -/
def pausedHead (fields : Llhttp.Parser → LlhttpFields) (earlier : List Callback) (request : HttpRequestCtx T)
    (data : List Byte) : RequestHead where
  method := (fields (request.clientOnhttpdata data).1.state.current).method
  headers := reportedHeaders [] [] (earlier ++ reportedNow request data)

/-- The connection is switched for a WebSocket handshake only, and any other request is answered with an error. -/
structure SwitchesOnly (head : RequestHead) (next : HttpRequestCtx T) (out : List HttpEvent) : Prop where
  switches : .transport (.write wsHardcodedHeader .static) ∈ out → next.websocketState ≠ none →
    head.asksWebSocket = true
  refuses : head.asksWebSocket = false → IsErrorHead (answerHead out) ∧ next.websocketState = none

/-- Nobody looks at the method or at the `Upgrade` header: a request that asks for something else is refused when the
    handler or the missing key refuse it, and it is answered unless there was an answer before. -/
theorem switches_only_iff (handler : Handler T) (fields : Llhttp.Parser → LlhttpFields) (earlier : List Callback)
    (http : request.websocketState = none) (paused : request.clientOnhttpdata data = (collected, .websocketUpgrade))
    (read : ondata handler request data = .ok (next, out)) :
    SwitchesOnly (pausedHead fields earlier request data) next out ↔
      (pausedHead fields earlier request data).asksWebSocket = true ∨
        accepts handler collected = false ∧
          IsErrorHead (answerTo request.responded (upgradeCalls handler collected ++ [.response 400#16 [] true])) := by
  have kept := clientOnhttpdata_connection request data
  rw [paused] at kept
  have silent : collected.websocketState = none := kept.websocketState.trans http
  have before : collected.responded = request.responded := kept.responded
  have body : ∀ {last failure events}, ondataBody handler request data = .ok ((last, failure), events) →
      websocketUpgrade handler collected = .ok ((last, failure), events) := by
    intro last failure events body
    rw [ondata_http http, paused] at body
    exact body
  rcases ondata_cases read with ended | ⟨reached, error, events, ended, rfl, rfl⟩
  · rcases websocketUpgrade_cases silent (body ended) with ⟨accepted, -, switched, written⟩ | ⟨-, failed, -⟩
    · rw [accepted]
      constructor
      · exact fun only => .inl (only.switches written switched)
      · rintro (asks | ⟨absurd, -⟩)
        · exact ⟨fun _ _ => asks, fun other => absurd asks (by simp [other])⟩
        · cases absurd
    · exact absurd rfl failed
  · rcases websocketUpgrade_cases silent (body ended) with ⟨-, absurd, -⟩ | ⟨refused, -, unswitched, responded, head⟩
    · cases absurd
    · have answer : answerHead (events ++ (reached.response 400#16 [] true).2.map .transport ++ [.failed error]) =
          answerTo request.responded (upgradeCalls handler collected ++ [.response 400#16 [] true]) := by
        rw [List.append_assoc, head, answerHead_response, answerTo_append, responded, before]
        simp [answerHead]
      have last : (reached.response 400#16 [] true).1.websocketState = none := by
        obtain ⟨_, same⟩ := response_kept reached 400#16 [] true
        rw [same]
        exact unswitched
      rw [refused, ← answer]
      constructor
      · intro only
        cases asks : (pausedHead fields earlier request data).asksWebSocket with
        | true => exact .inl rfl
        | false => exact .inr ⟨rfl, (only.refuses asks).1⟩
      · rintro (asks | ⟨-, error⟩)
        · exact ⟨fun _ _ => asks, fun other => absurd asks (by simp [other])⟩
        · exact ⟨fun _ switched => absurd last switched, fun _ => ⟨error, last⟩⟩

end Switch

section Connect

def connectHeaders : List (List Byte × List Byte) :=
  [(text "Sec-WebSocket-Key", text "dGhlIHNhbXBsZSBub25jZQ==")]

/-- `CONNECT a:1` with a key, and without an `Upgrade` header. -/
def connectOpening : List (Byte × List Callback) :=
  silent (text "CONNECT ") ++ spans .url (text "a:1") ++ silent (text " HTTP/1.1\r\n") ++
    connectHeaders.flatMap (fun header => headerScript header.1 header.2) ++ silent (text "\r")

def connectRequest : List Byte := (connectOpening ++ [upgradeEnd]).map Prod.fst

def connectReport : ReportedRequest where
  target := (text "a:1").map fun byte => [byte]
  headers := connectHeaders.map fun header => ⟨header.1.map fun byte => [byte], header.2.map fun byte => [byte]⟩
  content := []
  nonempty := no_spans

def connectFields : LlhttpFields := { method := httpConnect, flags := 0#16 }

@[reducible] def connectParser : Llhttp := scripted (connectOpening ++ [upgradeEnd]) .pausedUpgrade

theorem connect_pauses : @Llhttp.PausesAfter connectParser connectRequest connectReport.meaning :=
  scripted_pauses rfl (by decide)

theorem chat_agrees_connect : Agrees chatHandler (RequestContent.view connectReport.meaning) where
  listens := rfl
  agreed := ⟨_, rfl, rfl⟩
  key := ⟨text "dGhlIHNhbXBsZSBub25jZQ==", by decide, by decide⟩

theorem connect_paused :
    letI := connectParser
    letI := halfAgain
    ∃ collected : HttpRequestCtx Unit, ({} : HttpRequestCtx Unit).llhttpExecute connectRequest =
      (collected, .pausedUpgrade) := by
  let parser := connectParser
  let growth := halfAgain
  have ran : Llhttp.run (Llhttp.init : Llhttp.Parser) connectRequest =
      ([], (connectOpening ++ [upgradeEnd]).flatMap Prod.snd, .pausedUpgrade) := by
    have whole := @follow_beyond .pausedUpgrade (connectOpening ++ [upgradeEnd]) (by simp) []
    rw [List.append_nil] at whole
    exact whole
  have calls : (connectOpening ++ [upgradeEnd]).flatMap Prod.snd = connectReport.calls := rfl
  rw [calls] at ran
  rcases takeAll_init connectReport with ⟨-, after, taken, -⟩ | ⟨refused, -⟩
  · obtain ⟨parsed, executed, -⟩ := execute_some receives_init ran taken
    exact ⟨parsed, executed⟩
  · exact absurd (.inl rfl) refused

theorem switches_only_connect :
    letI := connectParser
    letI := halfAgain
    ∃ (next : HttpRequestCtx Unit) (out : List HttpEvent), ondata okHandler {} connectRequest = .ok (next, out) ∧
      SwitchesOnly (pausedHead (fun _ => connectFields) [] ({} : HttpRequestCtx Unit) connectRequest) next out := by
  let parser := connectParser
  let growth := halfAgain
  obtain ⟨collected, executed⟩ := connect_paused
  have paused : ({} : HttpRequestCtx Unit).clientOnhttpdata connectRequest = (collected, .websocketUpgrade) := by
    rw [HttpRequestCtx.clientOnhttpdata, executed]
  obtain ⟨next, out, read⟩ : ∃ next out, ondata okHandler {} connectRequest = .ok (next, out) := by
    rw [ondata, ondata_upgrade rfl executed]
    exact ⟨_, _, rfl⟩
  have fits : (responseHead 400#16 0).length ≤ 256 := responseHead_length 400#16 (by decide)
  exact ⟨next, out, read, (switches_only_iff okHandler (fun _ => connectFields) [] rfl paused read).mpr
    (.inr ⟨rfl, 400#16, 0, by decide, by decide, by simp [upgradeCalls, okHandler, answerTo, fits]⟩)⟩

/-- A key is all that a handler's agreement needs. -/
theorem connect_switched :
    letI := connectParser
    letI := halfAgain
    ∃ (next : HttpRequestCtx Unit) (out : List HttpEvent), llhttpBeforeHeadersComplete connectFields = true ∧
      ondata chatHandler {} connectRequest = .ok (next, out) ∧
      ¬ SwitchesOnly (pausedHead (fun _ => connectFields) [] ({} : HttpRequestCtx Unit) connectRequest) next out := by
  let parser := connectParser
  let growth := halfAgain
  obtain ⟨next, session, out, read, ⟨decoder, context, switched, -⟩, -⟩ := @upgrade_run Unit _ chatHandler _ _ _
    connect_pauses [] connectRequest (by simp) rfl (by decide) (.inl rfl) chat_agrees_connect []
  rw [List.append_nil, List.nil_append, run_singleton] at read
  refine ⟨next, out, rfl, read, ?_⟩
  intro only
  rw [(only.refuses rfl).2] at switched
  cases switched

end Connect

end ZapeProof
