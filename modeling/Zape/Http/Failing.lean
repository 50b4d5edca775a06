import Zape.Http.KeepAlive

/-! What happens to a connection when a read of its data fails. -/
namespace ZapeProof

open Machine Zig ZapeModel ZapeModel.HttpServer

section Calls

def isClose : TransportCall → Bool
  | .close _ => true
  | .write _ _ | .tcpBufferStart | .tcpBufferEnd => false

def shuts : HttpEvent → Bool
  | .transport call | .webSocket (.transport call) => isClose call
  | _ => false

/-- Whether one of the calls asks for the close. A response does only when it is the first one, and when its head
    fits its buffer, as it always does. -/
def asksClose : Bool → List RequestCall → Bool
  | _, [] => false
  | responded, .response code data close :: calls =>
    (!responded && close && decide ((responseHead code data.length).length ≤ 256)) || asksClose true calls
  | responded, .write _ _ :: calls => asksClose responded calls
  | _, .close _ :: _ => true

theorem asksClose_append (responded : Bool) (left right : List RequestCall) :
    asksClose responded (left ++ right) =
      (asksClose responded left || asksClose (responded || left.any isResponse) right) := by
  induction left generalizing responded with
  | nil => simp [asksClose]
  | cons call left ih =>
    cases call with
    | response code data close => simp [asksClose, ih, isResponse, Bool.or_assoc]
    | write data lifetime => simp [asksClose, ih, isResponse]
    | close action => simp [asksClose]

@[simp] theorem any_shuts_transport (calls : List TransportCall) :
    (calls.map HttpEvent.transport).any shuts = calls.any isClose := by
  simp [List.any_map, Function.comp_def, shuts]

variable {T : Type} [Llhttp]

theorem response_closes (request : HttpRequestCtx T) (code : BitVec 16) (data : List Byte) (close : Bool) :
    (request.response code data close).2.any isClose = asksClose request.responded [.response code data close] := by
  unfold HttpRequestCtx.response
  cases request.responded with
  | true => simp [asksClose]
  | false =>
    by_cases long : 256 < (responseHead code data.length).length
    · simp [asksClose, isClose, long]
    · have fits : (responseHead code data.length).length ≤ 256 := by omega
      cases close <;> by_cases some_data : data.length > 0 <;> simp [asksClose, isClose, long, fits, some_data]

theorem response_responded (request : HttpRequestCtx T) (code : BitVec 16) (data : List Byte) (close : Bool) :
    (request.response code data close).1.responded = true := by
  unfold HttpRequestCtx.response
  split
  · assumption
  · rfl

/-- Between two points of a run the calls made on the request decide whether there was a response, and whether the
    shutdown was requested. -/
structure Tallied (request next : HttpRequestCtx T) (asked : List RequestCall) (events : List HttpEvent) : Prop where
  responded : next.responded = (request.responded || asked.any isResponse)
  shut : events.any shuts = asksClose request.responded asked

theorem Tallied.trans {first second third : HttpRequestCtx T} {asked more : List RequestCall}
    {events rest : List HttpEvent} (left : Tallied first second asked events)
    (right : Tallied second third more rest) : Tallied first third (asked ++ more) (events ++ rest) := by
  refine ⟨?_, ?_⟩
  · rw [right.responded, left.responded, List.any_append, Bool.or_assoc]
  · rw [List.any_append, asksClose_append, left.shut, right.shut, left.responded]

theorem perform_tallied (request : HttpRequestCtx T) (call : RequestCall) :
    Tallied request (request.perform call).1 [call] ((request.perform call).2.map .transport) := by
  cases call with
  | response code data close =>
    refine ⟨?_, ?_⟩
    · simp [HttpRequestCtx.perform, response_responded, isResponse]
    · rw [any_shuts_transport]
      exact response_closes request code data close
  | write data lifetime =>
    exact ⟨by simp [HttpRequestCtx.perform, isResponse],
      by simp [HttpRequestCtx.perform, asksClose, shuts, isClose]⟩
  | close action =>
    exact ⟨by simp [HttpRequestCtx.perform, isResponse],
      by simp [HttpRequestCtx.perform, asksClose, shuts, isClose]⟩

theorem perform_websocketState (request : HttpRequestCtx T) (call : RequestCall) :
    (request.perform call).1.websocketState = request.websocketState := by
  cases call with
  | response code data close =>
    obtain ⟨responded, kept⟩ := response_kept request code data close
    simp [HttpRequestCtx.perform, kept]
  | write | close => rfl

theorem performAll_tallied (request : HttpRequestCtx T) (calls : List RequestCall) :
    Tallied request (request.performAll calls).1 calls ((request.performAll calls).2.map .transport) := by
  induction calls generalizing request with
  | nil => exact ⟨by simp [HttpRequestCtx.performAll], by simp [HttpRequestCtx.performAll, asksClose]⟩
  | cons call calls ih =>
    have all := (perform_tallied request call).trans (ih (request.perform call).1)
    rw [← List.map_append] at all
    exact all

end Calls

section Reads

variable {T : Type} [Llhttp] [GrowthPolicy]

def doneCalls (handler : Handler T) (request : HttpRequestCtx T) : List RequestCall :=
  match createHandler handler request, handler.onRequest with
  | (request, some userctx), some onRequest => (onRequest userctx request.view).2.1
  | _, _ => []

def upgradeCalls (handler : Handler T) (request : HttpRequestCtx T) : List RequestCall :=
  match handler.onUpradeToWebSocket, handler.onWebSocketMessage, createHandler handler request with
  | some onUprade, some _, (request, some userctx) => (onUprade userctx request.view).2.1
  | _, _, _ => []

/-- The calls a handler makes on the request during a read. -/
def handlerCalls (handler : Handler T) (request : HttpRequestCtx T) (data : List Byte) : List RequestCall :=
  match request.websocketState with
  | some _ => []
  | none =>
    match request.clientOnhttpdata data with
    | (request, .done) => doneCalls handler request
    | (request, .websocketUpgrade) => upgradeCalls handler request
    | (_, .cont) | (_, .parseError _) => []

/-- Every call on the request: those of the handler, that of `errdefer`, and those from outside of a read. -/
def requestCalls (handler : Handler T) (request : HttpRequestCtx T) : HttpActivity → List RequestCall
  | .read data =>
    handlerCalls handler request data ++ match ondataBody handler request data with
      | .ok ((_, some _), _) => [.response 400#16 [] true]
      | _ => []
  | .call call => [call]
  | .webSocket _ => []

variable {handler : Handler T} {request next : HttpRequestCtx T} {data : List Byte} {failure : Option ServerError}
  {events : List HttpEvent}

omit [GrowthPolicy] in
theorem createHandler_responded (handler : Handler T) (request : HttpRequestCtx T) :
    (createHandler handler request).1.responded = request.responded := by
  unfold createHandler
  split <;> rfl

/-- The parser's callbacks only collect the request. -/
theorem clientOnhttpdata_connection (request : HttpRequestCtx T) (data : List Byte) :
    SameConnection { request with state := (request.clientOnhttpdata data).1.state } (request.clientOnhttpdata data).1 := by
  rw [clientOnhttpdata_request]
  unfold HttpRequestCtx.llhttpExecute
  split
  · exact .refl request
  · have kept := callbacks_connection request (Llhttp.run request.state.current data).2.1
    exact ⟨rfl, kept.responded, kept.websocketState, kept.userCtx⟩

omit [GrowthPolicy] in
theorem Tallied.kept (responded : next.responded = request.responded) (silent : events.any shuts = false) :
    Tallied request next [] events :=
  ⟨by simp [responded], by simp [silent, asksClose]⟩

omit [GrowthPolicy] in
theorem createHandler_tallied : Tallied request (createHandler handler request).1 [] [] :=
  .kept (createHandler_responded handler request) rfl

omit [GrowthPolicy] in
/-- What the handler's calls on the request come to, with the handler just replaced. -/
theorem handled_tallied (request : HttpRequestCtx T) (userCtx : Option T) (calls : List RequestCall) :
    Tallied request ({ request with userCtx }.performAll calls).1 calls
      (({ request with userCtx }.performAll calls).2.map .transport) := by
  have replaced : Tallied request { request with userCtx } [] [] := .kept rfl rfl
  exact replaced.trans (performAll_tallied { request with userCtx } calls)

omit [GrowthPolicy] in
theorem requestDone_tallied :
    Tallied request (requestDone handler request).1.1 (doneCalls handler request) (requestDone handler request).2 := by
  have created := @createHandler_tallied _ _ handler request
  unfold requestDone doneCalls
  rcases made : createHandler handler request with ⟨fresh, userctx⟩
  rw [made] at created
  cases userctx with
  | none => exact created
  | some userctx =>
    cases handler.onRequest with
    | none => exact created
    | some onRequest =>
      have seen : Tallied fresh fresh [] [.onRequest fresh.view] := .kept rfl rfl
      exact created.trans (seen.trans (handled_tallied fresh _ _))

omit [GrowthPolicy] in
theorem acceptWebSocket_cases {accepted : Bool} {written : List TransportCall}
    (accept : acceptWebSocket request = .ok ((next, accepted), written)) :
    (accepted = false ∧ next = request ∧ written = []) ∨ (accepted = true ∧ next.websocketState ≠ none) := by
  unfold acceptWebSocket at accept
  split at accept
  · cases accept
    exact .inl ⟨rfl, rfl, rfl⟩
  · split at accept
    · cases accept
    · split at accept
      · cases accept
      · cases accept
        exact .inr ⟨rfl, by simp⟩

omit [GrowthPolicy] in
theorem upgraded_websocketState (http : request.websocketState ≠ none) (userctx : T) :
    (upgraded handler request userctx).1.websocketState ≠ none := by
  unfold upgraded
  split
  · simp
  · exact http

omit [GrowthPolicy] in
theorem websocketUpgrade_tallied
    (upgrade : websocketUpgrade handler request = .ok ((next, failure), events))
    (still : failure ≠ none ∨ next.websocketState = none) :
    Tallied request next (upgradeCalls handler request) events := by
  have created := @createHandler_tallied _ _ handler request
  unfold websocketUpgrade at upgrade
  unfold upgradeCalls
  split at upgrade
  · rename_i onUprade _ agrees listens
    rw [agrees, listens]
    rcases made : createHandler handler request with ⟨fresh, userctx⟩
    rw [made] at created upgrade
    cases userctx with
    | none =>
      cases upgrade
      exact created
    | some userctx =>
      rcases called : onUprade userctx fresh.view with ⟨answered, calls, agreed⟩
      have handled := created.trans (handled_tallied fresh (some answered) calls)
      rcases performed : { fresh with userCtx := some answered }.performAll calls with ⟨current, written⟩
      simp only [called, performed] at upgrade handled ⊢
      split at upgrade
      · cases upgrade
        exact handled
      · split at upgrade
        · cases upgrade
        · rename_i refused more accept
          rcases acceptWebSocket_cases accept with ⟨-, rfl, rfl⟩ | ⟨accepted, -⟩
          · cases upgrade
            rw [List.append_nil]
            exact handled
          · cases accepted
        · rename_i switched more accept
          rcases acceptWebSocket_cases accept with ⟨accepted, -⟩ | ⟨-, http⟩
          · cases accepted
          · have webSocket := @upgraded_websocketState _ _ handler _ http answered
            cases upgrade
            rcases still with still | still
            · exact absurd rfl still
            · exact absurd still webSocket
  · cases upgrade
    have uncalled : Tallied request request [] [] := .kept rfl rfl
    rename_i lacking
    split
    · rename_i agrees listens _
      exact absurd listens (lacking _ _ agrees)
    · exact uncalled

theorem ondataBody_tallied (http : request.websocketState = none)
    (body : ondataBody handler request data = .ok ((next, failure), events))
    (still : failure ≠ none ∨ next.websocketState = none) :
    Tallied request next (handlerCalls handler request data) events := by
  have responded := (clientOnhttpdata_connection request data).responded
  rw [ondata_http http] at body
  unfold handlerCalls
  rw [http]
  rcases parsed : request.clientOnhttpdata data with ⟨collecting, state⟩
  rw [parsed] at body responded
  have collected : Tallied request collecting [] [] := .kept responded rfl
  cases state with
  | cont | parseError =>
    cases body
    exact collected
  | done =>
    have called := Except.ok.inj body
    have done := @requestDone_tallied _ _ handler collecting
    rw [called] at done
    exact collected.trans done
  | websocketUpgrade => exact collected.trans (websocketUpgrade_tallied body still)

/-- A connection that has switched to a WebSocket stays with it, and none of its reads fails. -/
theorem ondataBody_webSocket (webSocket : request.websocketState ≠ none)
    (body : ondataBody handler request data = .ok ((next, failure), events)) :
    failure = none ∧ next.websocketState ≠ none := by
  unfold ondataBody at body
  split at body
  · cases body
  · split at body
    · cases body
    · cases body
      exact ⟨rfl, by simp⟩
  · rename_i absent
    exact absurd absent webSocket

def isFailure : HttpEvent → Bool
  | .failed _ => true
  | .onRequest _ | .transport _ | .webSocket _ => false

omit [GrowthPolicy] in
theorem requestDone_reports : (requestDone handler request).2.any isFailure = false := by
  unfold requestDone
  split
  · rfl
  · split
    · rfl
    · simp [isFailure]

omit [GrowthPolicy] in
theorem websocketUpgrade_reports (upgrade : websocketUpgrade handler request = .ok ((next, failure), events)) :
    events.any isFailure = false := by
  unfold websocketUpgrade at upgrade
  split at upgrade
  · split at upgrade
    · cases upgrade
      rfl
    · dsimp only at upgrade
      split at upgrade
      · cases upgrade
        simp [isFailure]
      · split at upgrade
        · cases upgrade
        · cases upgrade
          simp [isFailure]
        · cases upgrade
          simp only [upgraded]
          split <;> simp [isFailure]
  · cases upgrade
    rfl

theorem ondataBody_reports (body : ondataBody handler request data = .ok ((next, failure), events)) :
    events.any isFailure = false := by
  unfold ondataBody at body
  split at body
  · cases body
  · split at body
    · cases body
    · cases body
      simp [isFailure]
  · split at body
    · cases body
      rfl
    · exact websocketUpgrade_reports body
    · have called := Except.ok.inj body
      have reports := @requestDone_reports _ _ handler (request.clientOnhttpdata data).1
      rename_i same
      rw [same, called] at reports
      exact reports
    · cases body
      rfl

theorem ondata_cases {out : List HttpEvent} (read : ondata handler request data = .ok (next, out)) :
    ondataBody handler request data = .ok ((next, none), out) ∨
      ∃ reached error events, ondataBody handler request data = .ok ((reached, some error), events) ∧
        next = (reached.response 400#16 [] true).1 ∧
        out = events ++ (reached.response 400#16 [] true).2.map .transport ++ [.failed error] := by
  rcases body : ondataBody handler request data with panic | ⟨⟨reached, failure⟩, events⟩
  · simp [ondata, body] at read
  · cases failure with
    | none =>
      simp only [ondata, body] at read
      cases read
      exact .inl rfl
    | some error =>
      simp only [ondata, body] at read
      cases read
      exact .inr ⟨_, _, _, rfl, rfl, rfl⟩

theorem ondata_webSocket {out : List HttpEvent} (webSocket : request.websocketState ≠ none)
    (read : ondata handler request data = .ok (next, out)) : next.websocketState ≠ none := by
  rcases ondata_cases read with body | ⟨reached, error, events, body, -, -⟩
  · exact (ondataBody_webSocket webSocket body).2
  · exact absurd (ondataBody_webSocket webSocket body).1 (by simp)

theorem ondata_tallied {out : List HttpEvent} (read : ondata handler request data = .ok (next, out))
    (still : next.websocketState = none) : Tallied request next (requestCalls handler request (.read data)) out := by
  have http : request.websocketState = none := by
    by_contra webSocket
    exact ondata_webSocket webSocket read still
  rcases ondata_cases read with body | ⟨reached, error, events, body, rfl, rfl⟩
  · rw [requestCalls, body, List.append_nil]
    exact ondataBody_tallied http body (.inr still)
  · have handled := ondataBody_tallied http body (.inl (by simp))
    have answered := perform_tallied reached (.response 400#16 [] true)
    have reported : Tallied (reached.response 400#16 [] true).1 (reached.response 400#16 [] true).1 []
      [.failed error] := .kept rfl rfl
    have all := (handled.trans answered).trans reported
    rw [List.append_nil] at all
    rw [requestCalls, body]
    exact all

theorem activity_webSocket {act : HttpActivity} (webSocket : request.websocketState ≠ none)
    (step : activity handler request act = .ok (next, events)) : next.websocketState ≠ none := by
  cases act with
  | read data => exact ondata_webSocket webSocket step
  | call call =>
    cases step
    exact (perform_websocketState request call).trans_ne webSocket
  | webSocket calls =>
    cases switched : request.websocketState with
    | none => exact absurd switched webSocket
    | some websocketState =>
      simp only [activity, switched] at step
      cases step
      simp

theorem activity_tallied {act : HttpActivity} (step : activity handler request act = .ok (next, events))
    (still : next.websocketState = none) : Tallied request next (requestCalls handler request act) events := by
  cases act with
  | read data => exact ondata_tallied step still
  | call call =>
    cases step
    exact perform_tallied request call
  | webSocket calls =>
    cases http : request.websocketState with
    | none =>
      simp only [activity, http] at step
      cases step
      exact .kept rfl rfl
    | some websocketState =>
      simp only [activity, http] at step
      cases step
      cases still

theorem activities_tallied {activities : List HttpActivity} (ran : run (activity handler) request activities =
    .ok (next, events)) (still : next.websocketState = none) :
    Tallied request next (collect (activity handler) (requestCalls handler) request activities) events := by
  induction activities generalizing request events with
  | nil =>
    cases ran
    exact .kept rfl rfl
  | cons act activities ih =>
    obtain ⟨middle, head, rest, step, later, rfl⟩ := andThen_cases ran
    have http : middle.websocketState = none := by
      by_contra webSocket
      exact run_invariant (fun request => request.websocketState ≠ none)
        (fun _ _ _ _ before step => activity_webSocket before step) webSocket later still
    rw [collect_cons_ok step]
    exact (activity_tallied step http).trans (ih later)

end Reads

end ZapeProof
