import Zape.Http.Collecting

/-! What a read of HTTP data comes to, from what the parser reports for it. -/
namespace ZapeProof

open Machine Zig ZapeModel ZapeModel.HttpServer

def requestsSeen (events : List HttpEvent) : List RequestView :=
  events.filterMap fun
    | .onRequest view => some view
    | _ => none

@[simp] theorem requestsSeen_append (left right : List HttpEvent) :
    requestsSeen (left ++ right) = requestsSeen left ++ requestsSeen right := List.filterMap_append

@[simp] theorem requestsSeen_transport (calls : List TransportCall) :
    requestsSeen (calls.map .transport) = [] := by
  simp [requestsSeen]

variable {T : Type} [Llhttp]

/-- Between two reads of HTTP data, with no error lingering. -/
structure Receives (request : HttpRequestCtx T) (parser : Llhttp.Parser) (collected : Collected) : Prop where
  state : request.state = { current := parser }
  holds : Holds request collected
  websocketState : request.websocketState = none

theorem receives_init : Receives ({} : HttpRequestCtx T) Llhttp.init {} :=
  { state := rfl, holds := holds_init, websocketState := rfl }

theorem response_kept (request : HttpRequestCtx T) (code : BitVec 16) (data : List Byte) (close : Bool) :
    ∃ responded, (request.response code data close).1 = { request with responded } := by
  unfold HttpRequestCtx.response
  split
  · exact ⟨request.responded, rfl⟩
  · exact ⟨true, rfl⟩

theorem performAll_kept (request : HttpRequestCtx T) (calls : List RequestCall) :
    ∃ responded, (request.performAll calls).1 = { request with responded } := by
  induction calls generalizing request with
  | nil => exact ⟨request.responded, rfl⟩
  | cons call calls ih =>
    obtain ⟨responded, first⟩ : ∃ responded, (request.perform call).1 = { request with responded } := by
      cases call with
      | response code data close => exact response_kept request code data close
      | write | close => exact ⟨request.responded, rfl⟩
    obtain ⟨last, rest⟩ := ih (request.perform call).1
    refine ⟨last, ?_⟩
    show ((request.perform call).1.performAll calls).1 = _
    rw [rest, first]

theorem Receives.responded {request : HttpRequestCtx T} {parser : Llhttp.Parser} {collected : Collected}
    (receives : Receives request parser collected) (responded : Bool) (userCtx : Option T) :
    Receives { request with responded, userCtx } parser collected :=
  { state := receives.state, websocketState := receives.websocketState,
    holds := { url := receives.holds.url, field := receives.holds.field, value := receives.holds.value,
               headers := receives.holds.headers, body := receives.holds.body, done := receives.holds.done,
               allocator := receives.holds.allocator } }

theorem createHandler_granting {handler : Handler T} {request : HttpRequestCtx T} (granting : request.allocator = {}) :
    createHandler handler request =
      ({ request with userCtx := some (handler.init request.view) }, some (handler.init request.view)) := by
  rw [createHandler, granting, Allocator.allocate_granting]

variable [GrowthPolicy]

theorem clientOnhttpdata_request (request : HttpRequestCtx T) (data : List Byte) :
    (request.clientOnhttpdata data).1 = (request.llhttpExecute data).1 := by
  unfold HttpRequestCtx.clientOnhttpdata
  dsimp only
  split <;> rfl

section Execute

variable {request : HttpRequestCtx T} {parser next : Llhttp.Parser} {collected after : Collected}
  {data : List Byte} {calls : List Callback} {errno : Errno}

theorem execute_some (receives : Receives request parser collected)
    (ran : Llhttp.run parser data = (next, calls, errno)) (taken : collected.takeAll calls = some after) :
    ∃ last, request.llhttpExecute data = (last, errno) ∧ last.state = { current := next, error := errno } ∧
      Holds last after ∧ last.websocketState = none ∧ last.responded = request.responded := by
  obtain ⟨collecting, called, holds⟩ := callbacks_some receives.holds taken
  have same := callbacks_connection request calls
  rw [called] at same
  have quiet : ¬ request.state.error ≠ .ok := by simp [receives.state]
  refine ⟨{ collecting with state := { current := next, error := errno } }, ?_, rfl, ?_, ?_, same.responded⟩
  · rw [HttpRequestCtx.llhttpExecute, if_neg quiet, receives.state]
    simp only [ran, called, ite_true]
  · exact { url := holds.url, field := holds.field, value := holds.value, headers := holds.headers,
            body := holds.body, done := holds.done, allocator := holds.allocator }
  · rw [← receives.websocketState]
    exact same.websocketState

theorem execute_none (receives : Receives request parser collected)
    (ran : Llhttp.run parser data = (next, calls, errno)) (refused : collected.takeAll calls = none) :
    ∃ last, request.llhttpExecute data = (last, .user) ∧ last.state.error = .user ∧ last.websocketState = none := by
  have failed := callbacks_none receives.holds refused
  have quiet : ¬ request.state.error ≠ .ok := by simp [receives.state]
  rw [HttpRequestCtx.llhttpExecute, if_neg quiet, receives.state]
  simp only [ran, if_neg failed]
  exact ⟨_, rfl, rfl, (callbacks_connection request calls).websocketState.trans receives.websocketState⟩

end Execute

section Reads

variable {handler : Handler T} {request : HttpRequestCtx T} {parser next : Llhttp.Parser}
  {collected after : Collected} {data : List Byte} {reads : List (List Byte)} {calls : List Callback}

theorem ondata_http (http : request.websocketState = none) (data : List Byte) :
    ondataBody handler request data =
      match request.clientOnhttpdata data with
      | (request, .parseError _) => .ok ((request, some .httpParseError), [])
      | (request, .websocketUpgrade) => websocketUpgrade handler request
      | (request, .done) => .ok (requestDone handler request)
      | (request, .cont) => .ok ((request, none), []) := by
  rcases parsed : request.clientOnhttpdata data with ⟨after, state⟩
  cases state <;> simp only [ondataBody, http, parsed]

/-- While the message is incomplete a read changes nothing that can be seen. -/
theorem read_cont (receives : Receives request parser collected) (ran : Llhttp.run parser data = (next, calls, .ok))
    (taken : collected.takeAll calls = some after) (incomplete : after.done = false) :
    ∃ last, ondata handler request data = .ok (last, []) ∧ Receives last next after ∧
      last.responded = request.responded := by
  obtain ⟨last, executed, state, holds, http, responded⟩ := execute_some receives ran taken
  refine ⟨last, ?_, { state, holds, websocketState := http }, responded⟩
  have undone : last.done = false := holds.done.trans incomplete
  simp [ondata, ondata_http receives.websocketState, HttpRequestCtx.clientOnhttpdata, executed, undone]

theorem reads_cont (receives : Receives request parser collected) (continues : Llhttp.Continues parser reads calls next)
    (taken : collected.takeAll calls = some after) (incomplete : after.done = false) :
    ∃ last, run (ondata handler) request reads = .ok (last, []) ∧ Receives last next after ∧
      last.responded = request.responded := by
  induction continues generalizing request collected with
  | nil parser =>
    cases taken
    exact ⟨request, rfl, receives, rfl⟩
  | @cons parser middle next read reads calls rest ran others ih =>
    rw [Collected.takeAll_append] at taken
    obtain ⟨between, first, later⟩ := Option.bind_eq_some_iff.mp taken
    have undone : between.done = false := by
      have done := (takeAll_url_done later).2
      rw [incomplete] at done
      simpa using (Bool.or_eq_false_iff.mp done.symm).1
    obtain ⟨state, read, receiving, responded⟩ := read_cont receives ran first undone
    obtain ⟨last, run, received, same⟩ := ih receiving later
    exact ⟨last, run_ok_cons read run, received, same.trans responded⟩

end Reads

section Refused

variable {handler : Handler T} {request : HttpRequestCtx T} {parser next : Llhttp.Parser} {collected : Collected}
  {data : List Byte} {calls : List Callback}

/-- A span callback has refused, and the parser will not go on. -/
structure Refusing (request : HttpRequestCtx T) : Prop where
  error : request.state.error = .user
  websocketState : request.websocketState = none

theorem ondata_user {last : HttpRequestCtx T} (http : request.websocketState = none) {parsed : HttpRequestCtx T}
    {out : List HttpEvent} (executed : request.llhttpExecute data = (parsed, .user)) (error : parsed.state.error = .user)
    (still : parsed.websocketState = none) (read : ondata handler request data = .ok (last, out)) :
    Refusing last ∧ requestsSeen out = [] := by
  obtain ⟨responded, kept⟩ := response_kept parsed 400#16 [] true
  have done : ondata handler request data =
      .ok ((parsed.response 400#16 [] true).1,
        (parsed.response 400#16 [] true).2.map .transport ++ [.failed .httpParseError]) := by
    simp [ondata, ondata_http http, HttpRequestCtx.clientOnhttpdata, executed]
  cases done.symm.trans read
  rw [kept]
  exact ⟨{ error, websocketState := still }, by simp [requestsSeen]⟩

theorem Refusing.read {last : HttpRequestCtx T} {out : List HttpEvent} (refusing : Refusing request)
    (read : ondata handler request data = .ok (last, out)) : Refusing last ∧ requestsSeen out = [] := by
  have executed : request.llhttpExecute data = (request, .user) := by
    rw [HttpRequestCtx.llhttpExecute, if_pos (by simp [refusing.error]), refusing.error]
  exact ondata_user refusing.websocketState executed refusing.error refusing.websocketState read

theorem Refusing.run {last : HttpRequestCtx T} {reads : List (List Byte)} {out : List HttpEvent}
    (refusing : Refusing request) (read : run (ondata handler) request reads = .ok (last, out)) : Refusing last :=
  run_invariant Refusing (fun _ _ _ _ before step => (before.read step).1) refusing read

theorem read_refused (receives : Receives request parser collected)
    {errno : Errno} (ran : Llhttp.run parser data = (next, calls, errno)) (refused : collected.takeAll calls = none)
    {last : HttpRequestCtx T} {out : List HttpEvent} (read : ondata handler request data = .ok (last, out)) :
    Refusing last ∧ requestsSeen out = [] := by
  obtain ⟨parsed, executed, error, still⟩ := execute_none receives ran refused
  exact ondata_user receives.websocketState executed error still read

theorem reads_refused {reads : List (List Byte)} (receives : Receives request parser collected)
    (continues : Llhttp.Continues parser reads calls next) (undone : collected.done = false)
    (incomplete : .messageComplete ∉ calls) (refused : collected.takeAll calls = none)
    {last : HttpRequestCtx T} {out : List HttpEvent} (read : run (ondata handler) request reads = .ok (last, out)) :
    Refusing last := by
  induction continues generalizing request collected out with
  | nil parser => cases refused
  | @cons parser middle next piece pieces calls rest ran others ih =>
    obtain ⟨between, head, tail, first, later, rfl⟩ := andThen_cases read
    cases taken : collected.takeAll calls with
    | none => exact (read_refused receives ran taken first).1.run later
    | some collecting =>
      have still : collecting.done = false := by
        rw [(takeAll_url_done taken).2, undone]
        simpa using fun member => incomplete (List.mem_append_left _ member)
      obtain ⟨state, silent, receiving, -⟩ := @read_cont T _ _ handler _ _ _ _ _ _ _ receives ran taken still
      cases silent.symm.trans first
      rw [Collected.takeAll_append, taken] at refused
      exact ih receiving still (fun member => incomplete (List.mem_append_right _ member)) refused later

end Refused

end ZapeProof
