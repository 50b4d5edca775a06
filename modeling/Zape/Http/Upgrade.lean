import Zape.Http.Script
import Zape.Http.Serving
import Zape.WebSocket.Delivery

/-! Upgrades to a WebSocket: which are accepted, and what becomes of the frames behind them. -/
namespace ZapeProof

open Machine Zig ZapeModel ZapeModel.HttpServer

section Key

theorem wsGuid_length : wsGuid.length = 36 := by decide

/-- The buffer of 64 bytes holds the GUID and 28 bytes more, less than the 32 that the check lets through. -/
theorem getB64AcceptKey_fits {key : List Byte} (fits : key.length ≤ 28) :
    getB64AcceptKey key = .ok (Base64.encode (Sha1.hash (key ++ wsGuid))) := by
  have checked : ¬ key.length > 32 := by omega
  have first : appendSliceBounded 64 [] key = .ok key := by
    rw [appendSliceBounded, if_neg]
    · rfl
    · rw [List.length_nil]
      omega
  have second : appendSliceBounded 64 key wsGuid = .ok (key ++ wsGuid) := by
    rw [appendSliceBounded, if_neg]
    rw [wsGuid_length]
    omega
  have hashed : getSha1AcceptKey key = .ok (Sha1.hash (key ++ wsGuid)) := by
    rw [getSha1AcceptKey, if_neg checked]
    simp only [first, second, bind, Except.bind]
    rfl
  rw [getB64AcceptKey, hashed]
  rfl

theorem getB64AcceptKey_refuses {key : List Byte} (long : 28 < key.length) :
    ∃ error, getB64AcceptKey key = .error error := by
  by_cases checked : key.length > 32
  · refine ⟨.keyTooLong, ?_⟩
    rw [getB64AcceptKey, getSha1AcceptKey, if_pos checked]
    rfl
  · have first : appendSliceBounded 64 [] key = .ok key := by
      rw [appendSliceBounded, if_neg]
      · rfl
      · rw [List.length_nil]
        omega
    have second : appendSliceBounded 64 key wsGuid = .error .outOfMemory := by
      rw [appendSliceBounded, if_pos]
      rw [wsGuid_length]
      omega
    have hashed : getSha1AcceptKey key = .error .outOfMemory := by
      rw [getSha1AcceptKey, if_neg checked]
      simp only [first, second, bind, Except.bind]
    refine ⟨.outOfMemory, ?_⟩
    rw [getB64AcceptKey, hashed]
    rfl

variable {T : Type} [Llhttp]

def switchingProtocols (key : List Byte) : List TransportCall :=
  [.tcpBufferStart,
    .write wsHardcodedHeader .static,
    .write (text "Sec-WebSocket-Accept: ") .static,
    .write (Base64.encode (Sha1.hash (key ++ wsGuid))) .copy,
    .write (text "\r\nSec-WebSocket-Origin: 127.0.0.1\r\n\r\n") .static,
    .tcpBufferEnd]

/-- The upgrade is agreed to with the right response, or refused, and in neither case is there a panic. -/
def Answers (request : HttpRequestCtx T) (key : List Byte) : Prop :=
  ∃ next agreed calls, acceptWebSocket request = .ok ((next, agreed), calls) ∧
    (agreed = true → calls = switchingProtocols key)

theorem acceptWebSocket_agrees {request : HttpRequestCtx T} {key : List Byte}
    (header : request.headers.get (text "sec-websocket-key") = some key) (fits : key.length ≤ 28)
    (memory : (request.allocator.allocate 1).1 = true) :
    acceptWebSocket request =
      .ok (({ request with allocator := (request.allocator.allocate 1).2, websocketState := some {} }, true),
        switchingProtocols key) := by
  rcases answered : request.allocator.allocate 1 with ⟨granted, allocator⟩
  rw [answered] at memory
  cases memory
  rw [acceptWebSocket, header]
  simp only [getB64AcceptKey_fits fits, answered]
  rfl

theorem acceptWebSocket_panics {request : HttpRequestCtx T} {key : List Byte}
    (header : request.headers.get (text "sec-websocket-key") = some key) (long : 28 < key.length) :
    acceptWebSocket request = .error (.message "OOM") := by
  obtain ⟨error, refused⟩ := getB64AcceptKey_refuses long
  rw [acceptWebSocket, header]
  simp only [refused]

theorem answers_iff {request : HttpRequestCtx T} {key : List Byte}
    (header : request.headers.get (text "sec-websocket-key") = some key) :
    Answers request key ↔ key.length ≤ 28 ∧ (request.allocator.allocate 1).1 = true := by
  constructor
  · rintro ⟨next, agreed, calls, accepted, -⟩
    by_cases fits : key.length ≤ 28
    · refine ⟨fits, ?_⟩
      rw [acceptWebSocket, header] at accepted
      simp only [getB64AcceptKey_fits fits] at accepted
      rcases answered : request.allocator.allocate 1 with ⟨_ | _, allocator⟩
      · rw [answered] at accepted
        cases accepted
      · rfl
    · rw [acceptWebSocket_panics header (by omega)] at accepted
      cases accepted
  · rintro ⟨fits, memory⟩
    exact ⟨_, _, _, acceptWebSocket_agrees header fits memory, fun _ => rfl⟩

end Key

theorem answers_iff_sample :
    letI := scripted [] .pausedUpgrade
    Answers ({ headers := storeHeaders {} [(text "Sec-WebSocket-Key", text "dGhlIHNhbXBsZSBub25jZQ==")] } :
      HttpRequestCtx Unit) (text "dGhlIHNhbXBsZSBub25jZQ==") := by
  let parser := scripted [] .pausedUpgrade
  have header : (storeHeaders {} [(text "Sec-WebSocket-Key", text "dGhlIHNhbXBsZSBub25jZQ==")]).get
      (text "sec-websocket-key") = some (text "dGhlIHNhbXBsZSBub25jZQ==") := by decide
  exact (answers_iff header).mpr ⟨by decide, rfl⟩

theorem long_key_panics :
    letI := scripted [] .pausedUpgrade
    ¬ Answers ({ headers := storeHeaders {} [(text "Sec-WebSocket-Key", text "AAAAAAAAAAAAAAAAAAAAAAAAAAAAA")] } :
      HttpRequestCtx Unit) (text "AAAAAAAAAAAAAAAAAAAAAAAAAAAAA") := by
  let parser := scripted [] .pausedUpgrade
  have header : (storeHeaders {} [(text "Sec-WebSocket-Key", text "AAAAAAAAAAAAAAAAAAAAAAAAAAAAA")]).get
      (text "sec-websocket-key") = some (text "AAAAAAAAAAAAAAAAAAAAAAAAAAAAA") := by decide
  rintro ⟨next, agreed, calls, accepted, -⟩
  rw [acceptWebSocket_panics header (by decide)] at accepted
  cases accepted

section Delivered

def delivered (events : List HttpEvent) : List (List Byte) :=
  events.filterMap fun
    | .webSocket (.onMessage data _ _) => some data
    | _ => none

@[simp] theorem delivered_append (left right : List HttpEvent) :
    delivered (left ++ right) = delivered left ++ delivered right := List.filterMap_append

@[simp] theorem delivered_transport (calls : List TransportCall) : delivered (calls.map .transport) = [] := by
  simp [delivered]

theorem delivered_webSocket (events : List Event) :
    delivered (events.map .webSocket) = (messages events).map Prod.fst := by
  induction events with
  | nil => rfl
  | cons event events ih => cases event <;> simp_all [delivered, messages]

def payloads (frames : List Frame) : List (List Byte) :=
  (frames.filter fun frame => dataOpcode frame.kind.opcode).map Frame.payload

theorem payloads_eq_nil {frames : List Frame} :
    payloads frames = [] ↔ ∀ frame ∈ frames, dataOpcode frame.kind.opcode = false := by
  simp [payloads]

theorem payloads_append (left right : List Frame) : payloads (left ++ right) = payloads left ++ payloads right := by
  simp [payloads]

theorem payloads_reports (frames : List Frame) :
    (frames.filterMap fun frame => reports (frame, frame.payload)).map Prod.fst = payloads frames := by
  induction frames with
  | nil => rfl
  | cons frame frames ih =>
    cases data : dataOpcode frame.kind.opcode <;> simp_all [reports, payloads]

end Delivered

section Frames

variable {T : Type} [Llhttp] {handler : Handler T}

/-- The handler agrees to an upgrade whose request it sees so, and its key is short enough. -/
structure Agrees (handler : Handler T) (view : RequestView) : Prop where
  listens : handler.onWebSocketMessage.isSome
  agreed : ∃ onUprade, handler.onUpradeToWebSocket = some onUprade ∧ (onUprade (handler.init view) view).2.2 = true
  key : ∃ key, view.headers.get (text "sec-websocket-key") = some key ∧ key.length ≤ 28

/-- The connection has become a WebSocket, and is between two frames. -/
def Upgraded (request : HttpRequestCtx T) (session : Session T) : Prop :=
  ∃ decoder context, request.websocketState = some decoder ∧ request.userCtx = some context ∧
    Between (decoder, context) session

theorem upgraded_between {request : HttpRequestCtx T} {userctx : T} (fresh : request.websocketState = some {})
    (context : request.userCtx = some userctx) :
    ∃ session, Upgraded (upgraded handler request userctx).1 session ∧
      delivered (upgraded handler request userctx).2 = [] := by
  unfold upgraded
  rw [fresh]
  cases handler.onUpgradedToWebSocket with
  | none => exact ⟨{ context := userctx }, ⟨{}, userctx, fresh, context, between_fresh userctx⟩, rfl⟩
  | some onUpgraded =>
    rcases called : onUpgraded userctx ({} : WebSocketState).client with ⟨answered, calls⟩
    have effects := performAll_effects .server ({} : WebSocketState).client calls
    rcases performed : ({} : WebSocketState).client.performAll .server calls with ⟨client, events⟩
    rw [performed] at effects
    refine ⟨{ client, context := answered }, ⟨{ client }, answered, ?_, ?_, ?_⟩, ?_⟩
    · simp only [called, performed]
    · simp only [called]
    · exact { step := rfl, prevheader := rfl, client := rfl, key := rfl, context := rfl }
    · simp only [called, performed, delivered_webSocket, effects.messages_eq, List.map_nil]

theorem websocketUpgrade_agrees {request : HttpRequestCtx T} (granting : request.allocator = {})
    (agrees : Agrees handler request.view) :
    ∃ last session out, websocketUpgrade handler request = .ok ((last, none), out) ∧ Upgraded last session ∧
      delivered out = [] := by
  obtain ⟨onMessage, listens⟩ := Option.isSome_iff_exists.mp agrees.listens
  obtain ⟨onUprade, asks, agreed⟩ := agrees.agreed
  obtain ⟨key, header, fits⟩ := agrees.key
  rcases called : onUprade (handler.init request.view) request.view with ⟨userctx, calls, answer⟩
  rw [called] at agreed
  cases agreed
  let created : HttpRequestCtx T := { request with userCtx := some userctx }
  obtain ⟨responded, kept⟩ := performAll_kept created calls
  rcases performed : created.performAll calls with ⟨asked, written⟩
  rw [performed] at kept
  cases kept
  let asked : HttpRequestCtx T := { created with responded }
  have memory : (asked.allocator.allocate 1).1 = true := by
    show (request.allocator.allocate 1).1 = true
    rw [granting, Allocator.allocate_granting]
  have accepted := @acceptWebSocket_agrees T _ asked key header fits memory
  let accepting : HttpRequestCtx T :=
    { asked with allocator := (asked.allocator.allocate 1).2, websocketState := some {} }
  obtain ⟨session, between, silent⟩ := @upgraded_between T _ handler accepting userctx rfl rfl
  refine ⟨_, session, (written ++ switchingProtocols key).map .transport ++ (upgraded handler accepting userctx).2, ?_,
    between, ?_⟩
  · have asking : ({ request with userCtx := some userctx } : HttpRequestCtx T).performAll calls = (asked, written) :=
      performed
    have view : ({ request with userCtx := some (handler.init request.view) } : HttpRequestCtx T).view =
        request.view := rfl
    rw [websocketUpgrade, listens, asks]
    simp only [createHandler_granting granting, view, called, asking, accepted]
    rfl
  · rw [delivered_append, silent, delivered_transport]
    rfl

/-- When an upgrade was accepted, the handler agreed to it and the key was short. -/
theorem agrees_of_websocketUpgrade {request : HttpRequestCtx T} (granting : request.allocator = {})
    (http : request.websocketState = none) {last : HttpRequestCtx T} {error : Option ServerError}
    {out : List HttpEvent} (upgrade : websocketUpgrade handler request = .ok ((last, error), out))
    (accepted : last.websocketState.isSome) : Agrees handler request.view := by
  unfold websocketUpgrade at upgrade
  rw [createHandler_granting granting] at upgrade
  rcases asks : handler.onUpradeToWebSocket with _ | onUprade <;>
    rcases listens : handler.onWebSocketMessage with _ | onMessage <;> simp only [asks, listens] at upgrade
  case some.some =>
    have view : ({ request with userCtx := some (handler.init request.view) } : HttpRequestCtx T).view =
        request.view := rfl
    rw [view] at upgrade
    rcases called : onUprade (handler.init request.view) request.view with ⟨userctx, calls, answer⟩
    simp only [called] at upgrade
    obtain ⟨responded, kept⟩ := performAll_kept ({ request with userCtx := some userctx } : HttpRequestCtx T) calls
    rcases performed : ({ request with userCtx := some userctx } : HttpRequestCtx T).performAll calls with ⟨asked, written⟩
    rw [performed] at kept upgrade
    cases kept
    cases answer
    · cases upgrade
      simp [http] at accepted
    · refine { listens := by simp [listens], agreed := ⟨onUprade, asks, by rw [called]⟩, key := ?_ }
      cases header : request.headers.get (text "sec-websocket-key") with
      | none =>
        have refuses : acceptWebSocket ({ request with userCtx := some userctx, responded } : HttpRequestCtx T) =
            .ok (({ request with userCtx := some userctx, responded }, false), []) := by
          simp only [acceptWebSocket, header]
        simp only [refuses, Bool.not_true, Bool.false_eq_true, ite_false] at upgrade
        cases upgrade
        simp [http] at accepted
      | some key =>
        refine ⟨key, header, ?_⟩
        by_contra long
        have panics := @acceptWebSocket_panics T _ { request with userCtx := some userctx, responded } key header (by omega)
        simp [panics] at upgrade
  all_goals
    cases upgrade
    simp [http] at accepted

variable [GrowthPolicy]

section Upgrade

variable {request : HttpRequestCtx T} {parser next : Llhttp.Parser} {collected : Collected} {data : List Byte}
  {calls : List Callback}

theorem ondata_upgrade {parsed : HttpRequestCtx T} (http : request.websocketState = none)
    (executed : request.llhttpExecute data = (parsed, .pausedUpgrade)) :
    ondataBody handler request data = websocketUpgrade handler parsed := by
  simp [ondata_http http, HttpRequestCtx.clientOnhttpdata, executed]

theorem read_upgrade {after : Collected} (receives : Receives request parser collected)
    (ran : Llhttp.run parser data = (next, calls, .pausedUpgrade)) (taken : collected.takeAll calls = some after)
    (agrees : Agrees handler after.view) :
    ∃ last session out, ondata handler request data = .ok (last, out) ∧ Upgraded last session ∧ delivered out = [] := by
  obtain ⟨parsed, executed, -, holds, -⟩ := execute_some receives ran taken
  rw [← holds_view holds] at agrees
  obtain ⟨last, session, out, upgrade, between, silent⟩ := websocketUpgrade_agrees holds.allocator agrees
  refine ⟨last, session, out, ?_, between, silent⟩
  rw [ondata, ondata_upgrade receives.websocketState executed, upgrade]

theorem agrees_of_read (receives : Receives request parser collected)
    (ran : Llhttp.run parser data = (next, calls, .pausedUpgrade)) {last : HttpRequestCtx T} {out : List HttpEvent}
    (read : ondata handler request data = .ok (last, out)) (accepted : last.websocketState.isSome) :
    ∃ after, collected.takeAll calls = some after ∧ Agrees handler after.view := by
  cases taken : collected.takeAll calls with
  | none =>
    have refusing := (read_refused receives ran taken read).1
    simp [refusing.websocketState] at accepted
  | some after =>
    obtain ⟨parsed, executed, -, holds, http, -⟩ := execute_some receives ran taken
    refine ⟨after, rfl, ?_⟩
    rw [← holds_view holds]
    rw [ondata, ondata_upgrade receives.websocketState executed] at read
    rcases upgrade : websocketUpgrade handler parsed with panic | ⟨⟨upgrading, error⟩, events⟩
    · rw [upgrade] at read
      cases read
    · rw [upgrade] at read
      apply agrees_of_websocketUpgrade holds.allocator http upgrade
      cases error with
      | none =>
        cases read
        exact accepted
      | some error =>
        obtain ⟨responded, kept⟩ := response_kept upgrading 400#16 [] true
        simp only [Except.ok.injEq, Prod.mk.injEq] at read
        rw [← read.1, kept] at accepted
        exact accepted

end Upgrade

theorem websocket_reads {request : HttpRequestCtx T} {decoder last : WebSocketState} {context answered : T}
    {reads : List (List Byte)} {out : List Event} (websocket : request.websocketState = some decoder)
    (created : request.userCtx = some context)
    (decoded : run (WebSocketState.processData .server (webSocketCallbacks handler)) (decoder, context) reads =
      .ok ((last, answered), out)) :
    ∃ reached, run (ondata handler) request reads = .ok (reached, out.map .webSocket) := by
  induction reads generalizing request decoder context out with
  | nil =>
    cases decoded
    exact ⟨request, rfl⟩
  | cons data reads ih =>
    obtain ⟨⟨between, answering⟩, head, rest, first, others, rfl⟩ := andThen_cases decoded
    let next : HttpRequestCtx T := { request with websocketState := some between, userCtx := some answering }
    have read : ondata handler request data = .ok (next, head.map .webSocket) := by
      rw [ondata, ondataBody, websocket, created]
      simp only [first]
      rfl
    obtain ⟨reached, later⟩ := @ih next between answering rest rfl rfl others
    refine ⟨reached, ?_⟩
    rw [List.map_append]
    exact run_ok_cons read later

theorem frames_delivered {request : HttpRequestCtx T} {session : Session T} (listens : handler.onWebSocketMessage.isSome)
    (websocket : Upgraded request session) {frames : List Frame} (masked : ∀ frame ∈ frames, frame.masked = true)
    {reads : List (List Byte)} (cut : reads.flatten = frames.flatMap Frame.wire) :
    ∃ last out, run (ondata handler) request reads = .ok (last, out) ∧ delivered out = payloads frames := by
  obtain ⟨decoder, context, state, created, between⟩ := websocket
  obtain ⟨⟨last, answered⟩, sessionLast, out, decoded, delivering, -⟩ :=
    @reads_deliver T .server (webSocketCallbacks handler) _ _ _ between frames fun frame member => .inl (masked frame member)
  rw [← cut] at decoded
  obtain ⟨reached, read⟩ := websocket_reads state created ((run_flatten _ _ _).trans decoded)
  refine ⟨reached, _, read, ?_⟩
  have reported := (run_deliver_trace delivering).reported
  have listening : (webSocketCallbacks handler).onMessage.isSome := by simp [webSocketCallbacks, listens]
  rw [if_pos listening, readings_masked masked, List.filterMap_map] at reported
  rw [delivered_webSocket, reported, ← payloads_reports]
  rfl

section Cut

variable {bytes : List Byte} {content : RequestContent} (pauses : Llhttp.PausesAfter bytes content)

include pauses

theorem upgrade_run {pieces : List (List Byte)} {rest : List Byte} (nonempty : ∀ piece ∈ pieces, piece ≠ [])
    (cut : pieces.flatten ++ rest = bytes) (more : rest ≠ [])
    (body : BodyAccepted (storeHeaders {} content.headers) content.body)
    (agrees : Agrees handler (RequestContent.view content)) (extra : List Byte) :
    ∃ last session out, run (ondata handler) ({} : HttpRequestCtx T) (pieces ++ [rest ++ extra]) = .ok (last, out) ∧
      Upgraded last session ∧ delivered out = [] := by
  obtain ⟨reported, early, late, middle, next, continues, ran, calls, rfl, incomplete⟩ :=
    pauses pieces rest extra nonempty cut more
  rcases takeAll_init reported with ⟨-, after, taken, adds⟩ | ⟨refused, -⟩
  · rw [← calls, Collected.takeAll_append] at taken
    obtain ⟨between, first, later⟩ := Option.bind_eq_some_iff.mp taken
    have undone : between.done = false := by simpa [incomplete] using (takeAll_url_done first).2
    obtain ⟨reading, silent, receiving, -⟩ :=
      @reads_cont T _ _ handler _ _ _ _ _ _ _ receives_init continues first undone
    rw [← adds.view] at agrees
    obtain ⟨last, session, out, read, between, quiet⟩ := read_upgrade receiving ran later agrees
    refine ⟨last, session, out, ?_, between, quiet⟩
    rw [run_append, silent, andThen_silent, run_singleton]
    exact read
  · exact absurd body refused

theorem agrees_of_run {pieces : List (List Byte)} {rest : List Byte} (nonempty : ∀ piece ∈ pieces, piece ≠ [])
    (cut : pieces.flatten ++ rest = bytes) (more : rest ≠ []) {last : HttpRequestCtx T} {out : List HttpEvent}
    (read : run (ondata handler) ({} : HttpRequestCtx T) (pieces ++ [rest]) = .ok (last, out))
    (accepted : last.websocketState.isSome) :
    BodyAccepted (storeHeaders {} content.headers) content.body ∧ Agrees handler (RequestContent.view content) := by
  obtain ⟨reported, early, late, middle, next, continues, ran, calls, rfl, incomplete⟩ :=
    pauses pieces rest [] nonempty cut more
  rw [List.append_nil] at ran
  rw [run_append] at read
  obtain ⟨reading, head, tail, first, final, -⟩ := andThen_cases read
  rw [run_singleton] at final
  cases taken : Collected.takeAll {} early with
  | none =>
    have refusing := reads_refused receives_init continues rfl incomplete taken first
    simp [(refusing.read final).1.websocketState] at accepted
  | some between =>
    have undone : between.done = false := by simpa [incomplete] using (takeAll_url_done taken).2
    obtain ⟨state, silent, receiving, -⟩ :=
      @reads_cont T _ _ handler _ _ _ _ _ _ _ receives_init continues taken undone
    cases silent.symm.trans first
    obtain ⟨after, later, agrees⟩ := agrees_of_read receiving ran final accepted
    have whole : Collected.takeAll {} reported.calls = some after := by
      rw [← calls, Collected.takeAll_append, taken]
      exact later
    rcases takeAll_init reported with ⟨body, _, taken, adds⟩ | ⟨-, refused⟩
    · cases whole.symm.trans taken
      rw [adds.view] at agrees
      exact ⟨body, agrees⟩
    · cases refused.symm.trans whole

/-- Frames that share the last read of the request are lost, and those behind it are delivered. -/
theorem cut_delivers (body : BodyAccepted (storeHeaders {} content.headers) content.body)
    (agrees : Agrees handler (RequestContent.view content)) {pieces : List (List Byte)} {rest : List Byte}
    (nonempty : ∀ piece ∈ pieces, piece ≠ []) (cut : pieces.flatten ++ rest = bytes) (more : rest ≠ [])
    (lost : List Byte) {kept : List Frame} (masked : ∀ frame ∈ kept, frame.masked = true) {later : List (List Byte)}
    (laterCut : later.flatten = kept.flatMap Frame.wire) :
    ∃ last out, run (ondata handler) ({} : HttpRequestCtx T) (pieces ++ (rest ++ lost) :: later) = .ok (last, out) ∧
      delivered out = payloads kept := by
  obtain ⟨upgrade, session, out, first, websocket, silent⟩ := upgrade_run pauses nonempty cut more body agrees lost
  obtain ⟨last, rest, others, shown⟩ := frames_delivered agrees.listens websocket masked laterCut
  refine ⟨last, out ++ rest, ?_, ?_⟩
  · rw [List.append_cons]
    exact run_ok_append first others
  · rw [delivered_append, silent, shown]
    rfl

/-- The request comes alone in one run and with some frames behind it in the other. -/
theorem messages_kept_iff {alone : List (List Byte)} {ending : List Byte} (nonempty : ∀ piece ∈ alone, piece ≠ [])
    (whole : alone.flatten ++ ending = bytes) (some_end : ending ≠ []) {accepting : HttpRequestCtx T}
    {head : List HttpEvent} (read : run (ondata handler) ({} : HttpRequestCtx T) (alone ++ [ending]) = .ok (accepting, head))
    (accepted : accepting.websocketState.isSome) {pieces : List (List Byte)} {rest : List Byte}
    (pieces_nonempty : ∀ piece ∈ pieces, piece ≠ []) (cut : pieces.flatten ++ rest = bytes) (some_rest : rest ≠ [])
    {lost kept : List Frame} (masked : ∀ frame ∈ lost ++ kept, frame.masked = true) {later separate : List (List Byte)}
    (laterCut : later.flatten = kept.flatMap Frame.wire)
    (separateCut : separate.flatten = (lost ++ kept).flatMap Frame.wire) :
    ∃ last out reference expected,
      run (ondata handler) ({} : HttpRequestCtx T) (pieces ++ (rest ++ lost.flatMap Frame.wire) :: later) =
        .ok (last, out) ∧
      run (ondata handler) ({} : HttpRequestCtx T) (alone ++ ending :: separate) = .ok (reference, expected) ∧
      (delivered out = delivered expected ↔ ∀ frame ∈ lost, dataOpcode frame.kind.opcode = false) := by
  obtain ⟨body, agrees⟩ := agrees_of_run pauses nonempty whole some_end read accepted
  obtain ⟨last, out, shared, shown⟩ := cut_delivers pauses body agrees pieces_nonempty cut some_rest
    (lost.flatMap Frame.wire) (fun frame member => masked frame (List.mem_append_right _ member)) laterCut
  obtain ⟨reference, expected, apart, all⟩ := cut_delivers pauses body agrees nonempty whole some_end [] masked separateCut
  rw [List.append_nil] at apart
  refine ⟨last, out, reference, expected, shared, apart, ?_⟩
  rw [shown, all, payloads_append, ← payloads_eq_nil]
  simp

end Cut

end Frames

section Chat

def upgradeHeaders : List (List Byte × List Byte) :=
  [(text "Connection", text "Upgrade"), (text "Upgrade", text "websocket"),
    (text "Sec-WebSocket-Key", text "dGhlIHNhbXBsZSBub25jZQ==")]

def upgradeOpening : List (Byte × List Callback) :=
  silent (text "GET ") ++ spans .url (text "/chat") ++ silent (text " HTTP/1.1\r\n") ++
    upgradeHeaders.flatMap (fun header => headerScript header.1 header.2) ++ silent (text "\r")

def upgradeEnd : Byte × List Callback := (0x0A#8, [.headersComplete, .messageComplete])

def upgradeRequest : List Byte := (upgradeOpening ++ [upgradeEnd]).map Prod.fst

def upgradeReport : ReportedRequest where
  target := (text "/chat").map fun byte => [byte]
  headers := upgradeHeaders.map fun header => ⟨header.1.map fun byte => [byte], header.2.map fun byte => [byte]⟩
  content := []
  nonempty := no_spans

@[reducible] def upgradeParser : Llhttp := scripted (upgradeOpening ++ [upgradeEnd]) .pausedUpgrade

theorem upgrade_pauses : @Llhttp.PausesAfter upgradeParser upgradeRequest upgradeReport.meaning :=
  scripted_pauses rfl (by decide)

def chatHandler : Handler Unit where
  init _ := ()
  onUpradeToWebSocket := some fun userctx _ => (userctx, [], true)
  onWebSocketMessage := some fun userctx _ _ => (userctx, [], false)

theorem chat_agrees : Agrees chatHandler (RequestContent.view upgradeReport.meaning) where
  listens := rfl
  agreed := ⟨_, rfl, rfl⟩
  key := ⟨text "dGhlIHNhbXBsZSBub25jZQ==", by decide, by decide⟩

def greeting : Frame := ⟨true, .text, .short, some fun _ => 0#8, [0x41#8], by decide⟩

theorem upgradeRequest_some : upgradeRequest ≠ [] := by decide

/-- The request in two reads, and a text frame in two more. -/
theorem messages_kept_iff_chat :
    letI := upgradeParser
    letI := halfAgain
    ∃ last out reference expected,
      run (ondata chatHandler) ({} : HttpRequestCtx Unit)
        [upgradeRequest.take 10, upgradeRequest.drop 10, greeting.wire.take 3, greeting.wire.drop 3] = .ok (last, out) ∧
      run (ondata chatHandler) ({} : HttpRequestCtx Unit) [upgradeRequest, greeting.wire] = .ok (reference, expected) ∧
      delivered out = delivered expected := by
  let parser := upgradeParser
  let growth := halfAgain
  obtain ⟨accepting, session, head, read, ⟨_, _, websocket, _⟩, _⟩ := @upgrade_run Unit _ chatHandler _ _ _
    upgrade_pauses [] upgradeRequest (by simp) rfl upgradeRequest_some (.inl rfl) chat_agrees []
  rw [List.append_nil] at read
  have cut : [upgradeRequest.take 10].flatten ++ upgradeRequest.drop 10 = upgradeRequest := by simp
  obtain ⟨last, out, reference, expected, shared, apart, same⟩ := @messages_kept_iff Unit _ chatHandler _ _ _
    upgrade_pauses [] upgradeRequest (by simp) rfl upgradeRequest_some _ _ read (by simp [websocket])
    [upgradeRequest.take 10] (upgradeRequest.drop 10) (by decide) cut (by decide)
    [] [greeting] (by decide) [greeting.wire.take 3, greeting.wire.drop 3] [greeting.wire] (by simp) (by simp)
  rw [List.flatMap_nil, List.append_nil] at shared
  exact ⟨last, out, reference, expected, shared, apart, same.mpr (by simp)⟩

/-- The frame in the last read of the request is never decoded. -/
theorem frame_behind_request_lost :
    letI := upgradeParser
    letI := halfAgain
    ∃ last out reference expected,
      run (ondata chatHandler) ({} : HttpRequestCtx Unit) [upgradeRequest ++ greeting.wire] = .ok (last, out) ∧
      run (ondata chatHandler) ({} : HttpRequestCtx Unit) [upgradeRequest, greeting.wire] = .ok (reference, expected) ∧
      delivered out = [] ∧ delivered expected = [text "A"] := by
  let parser := upgradeParser
  let growth := halfAgain
  obtain ⟨last, out, shared, shown⟩ := @cut_delivers Unit _ chatHandler _ _ _ upgrade_pauses (.inl rfl) chat_agrees
    [] upgradeRequest (by simp) rfl upgradeRequest_some greeting.wire [] (by simp) [] rfl
  obtain ⟨reference, expected, apart, all⟩ := @cut_delivers Unit _ chatHandler _ _ _ upgrade_pauses (.inl rfl)
    chat_agrees [] upgradeRequest (by simp) rfl upgradeRequest_some [] [greeting] (by decide) [greeting.wire] (by simp)
  rw [List.append_nil] at apart
  exact ⟨last, out, reference, expected, shared, apart, shown, all.trans (by decide)⟩

end Chat

end ZapeProof
