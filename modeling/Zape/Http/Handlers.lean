import Zape.Http.Failing

/-! The objects that `T.init` makes for a connection, and what its disconnect does with them. -/
namespace ZapeModel

open Machine Zig HttpServer

/-- What happens to the handlers of a connection, which are numbered as they are made. -/
inductive HandlerEvent
  | http (event : HttpEvent)
  | init (object : Nat)
  | onDisconnect (object : Nat)
  | deinit (object : Nat)

/-- A connection that made so many handlers, with the one that `user_ctx` points to. -/
structure HttpConnection (T : Type) [Llhttp] where
  request : HttpRequestCtx T := {}
  made : Nat := 0
  userCtx : Option Nat := none

section Connection

variable {T : Type} [Llhttp] [GrowthPolicy] (handler : Handler T)

/-- Whether `ondata` gets to `T.init`. -/
def initialises (request : HttpRequestCtx T) (data : List Byte) : Bool :=
  match request.websocketState with
  | some _ => false
  | none =>
    match request.clientOnhttpdata data with
    | (request, .done) => (createHandler handler request).2.isSome
    | (request, .websocketUpgrade) =>
      handler.onUpradeToWebSocket.isSome && handler.onWebSocketMessage.isSome &&
        (createHandler handler request).2.isSome
    | (_, .cont) | (_, .parseError _) => false

def makes (request : HttpRequestCtx T) : HttpActivity → Bool
  | .read data => initialises handler request data
  | .call _ | .webSocket _ => false

def connectionActivity (connection : HttpConnection T) (act : HttpActivity) :
    Outcome Panic (HttpConnection T) HandlerEvent :=
  match activity handler connection.request act with
  | .error panic => .error panic
  | .ok (request, events) =>
    let events := events.map .http
    if makes handler connection.request act then
      .ok ({ request, made := connection.made + 1, userCtx := some connection.made }, .init connection.made :: events)
    else .ok ({ connection with request }, events)

omit [GrowthPolicy] in
/-- `disconnect`; `T` has an `onDisconnect` or not. -/
def disconnect (onDisconnect : Bool) (connection : HttpConnection T) : List HandlerEvent :=
  match connection.userCtx with
  | none => []
  | some object => (if onDisconnect then [.onDisconnect object] else []) ++ [.deinit object]

end Connection

end ZapeModel

namespace ZapeProof

open Machine Zig ZapeModel ZapeModel.HttpServer

section Slot

variable {T : Type} [Llhttp] {handler : Handler T} {request next : HttpRequestCtx T}

theorem createHandler_userCtx (handler : Handler T) (request : HttpRequestCtx T) :
    (createHandler handler request).1.userCtx.isSome =
      (request.userCtx.isSome || (createHandler handler request).2.isSome) := by
  unfold createHandler
  split <;> simp

theorem handled_userCtx (request : HttpRequestCtx T) (userctx : T) (calls : List RequestCall) :
    ({ request with userCtx := some userctx }.performAll calls).1.userCtx.isSome = true := by
  obtain ⟨responded, kept⟩ := performAll_kept { request with userCtx := some userctx } calls
  rw [kept]
  rfl

theorem requestDone_userCtx (handler : Handler T) (request : HttpRequestCtx T) :
    (requestDone handler request).1.1.userCtx.isSome =
      (request.userCtx.isSome || (createHandler handler request).2.isSome) := by
  have created := createHandler_userCtx handler request
  unfold requestDone
  rcases made : createHandler handler request with ⟨fresh, userctx⟩
  rw [made] at created
  cases userctx with
  | none => exact created
  | some userctx =>
    cases handler.onRequest with
    | none => exact created
    | some onRequest =>
      have handled := handled_userCtx fresh (onRequest userctx fresh.view).1 (onRequest userctx fresh.view).2.1
      simpa using handled

theorem acceptWebSocket_userCtx {accepted : Bool} {written : List TransportCall}
    (accept : acceptWebSocket request = .ok ((next, accepted), written)) : next.userCtx = request.userCtx := by
  unfold acceptWebSocket at accept
  split at accept
  · cases accept
    rfl
  · split at accept
    · cases accept
    · split at accept <;> cases accept
      rfl

theorem upgraded_userCtx (some_handler : request.userCtx.isSome) (userctx : T) :
    (upgraded handler request userctx).1.userCtx.isSome := by
  unfold upgraded
  split
  · rfl
  · exact some_handler

theorem websocketUpgrade_userCtx {failure : Option ServerError} {events : List HttpEvent}
    (upgrade : websocketUpgrade handler request = .ok ((next, failure), events)) :
    next.userCtx.isSome = (request.userCtx.isSome || (handler.onUpradeToWebSocket.isSome &&
      handler.onWebSocketMessage.isSome && (createHandler handler request).2.isSome)) := by
  have created := createHandler_userCtx handler request
  unfold websocketUpgrade at upgrade
  split at upgrade
  · rename_i onUprade _ agrees listens
    rw [agrees, listens]
    rcases made : createHandler handler request with ⟨fresh, userctx⟩
    rw [made] at created upgrade
    cases userctx with
    | none =>
      cases upgrade
      exact created
    | some userctx =>
      have handled := handled_userCtx fresh (onUprade userctx fresh.view).1 (onUprade userctx fresh.view).2.1
      simp only [Option.isSome_some, Bool.and_self, Bool.or_true]
      dsimp only at upgrade
      split at upgrade
      · cases upgrade
        exact handled
      · split at upgrade
        · cases upgrade
        · rename_i accept
          have kept := acceptWebSocket_userCtx accept
          cases upgrade
          rw [kept]
          exact handled
        · rename_i accept
          have kept := acceptWebSocket_userCtx accept
          rw [← kept] at handled
          have webSocket := @upgraded_userCtx _ _ handler _ handled (onUprade userctx fresh.view).1
          cases upgrade
          exact webSocket
  · rename_i lacking
    cases upgrade
    cases agrees : handler.onUpradeToWebSocket with
    | none => simp
    | some onUprade =>
      cases listens : handler.onWebSocketMessage with
      | none => simp
      | some onFrame => exact absurd listens (lacking _ _ agrees)

variable [GrowthPolicy]

theorem ondataBody_userCtx {data : List Byte} {failure : Option ServerError} {events : List HttpEvent}
    (body : ondataBody handler request data = .ok ((next, failure), events)) :
    next.userCtx.isSome = (request.userCtx.isSome || initialises handler request data) := by
  have parsing := (clientOnhttpdata_connection request data).userCtx
  unfold initialises
  cases webSocket : request.websocketState with
  | some websocketState =>
    unfold ondataBody at body
    rw [webSocket] at body
    cases handled : request.userCtx with
    | none =>
      rw [handled] at body
      cases body
    | some userctx =>
      rw [handled] at body
      dsimp only at body
      split at body
      · cases body
      · cases body
        rfl
  | none =>
    rw [ondata_http webSocket] at body
    dsimp only
    rcases parsed : request.clientOnhttpdata data with ⟨collecting, state⟩
    rw [parsed] at body parsing
    rw [← parsing]
    cases state with
    | cont | parseError =>
      cases body
      exact (Bool.or_false _).symm
    | done =>
      have done := requestDone_userCtx handler collecting
      rw [Except.ok.inj body] at done
      exact done
    | websocketUpgrade => exact websocketUpgrade_userCtx body

theorem activity_userCtx {act : HttpActivity} {events : List HttpEvent}
    (step : activity handler request act = .ok (next, events)) :
    next.userCtx.isSome = (request.userCtx.isSome || makes handler request act) := by
  cases act with
  | read data =>
    rcases ondata_cases step with body | ⟨reached, error, earlier, body, rfl, -⟩
    · exact ondataBody_userCtx body
    · obtain ⟨responded, kept⟩ := response_kept reached 400#16 [] true
      have handled := ondataBody_userCtx body
      rw [kept]
      exact handled
  | call call =>
    cases step
    obtain ⟨responded, kept⟩ := performAll_kept request [call]
    have same : (request.perform call).1 = { request with responded } := kept
    show (request.perform call).1.userCtx.isSome = _
    rw [same]
    exact (Bool.or_false _).symm
  | webSocket calls =>
    cases webSocket : request.websocketState <;> simp only [activity, webSocket] at step <;> cases step <;>
      simp [makes]

end Slot

section Run

variable {T : Type} [Llhttp] [GrowthPolicy] {handler : Handler T} {connection last : HttpConnection T}
  {events : List HandlerEvent}

/-- `user_ctx` is the handler that was made last. -/
structure PointsToLast (connection : HttpConnection T) : Prop where
  latest : connection.userCtx = if connection.made = 0 then none else some (connection.made - 1)
  value : connection.request.userCtx.isSome = connection.userCtx.isSome

def deinits (object : Nat) : HandlerEvent → Bool
  | .deinit other => other = object
  | .http _ | .init _ | .onDisconnect _ => false

/-- What a stretch of the run did with handlers: it made those that are new, and released none. -/
structure Makes (connection last : HttpConnection T) (events : List HandlerEvent) : Prop where
  grows : connection.made ≤ last.made
  inits : ∀ object, .init object ∈ events ↔ connection.made ≤ object ∧ object < last.made
  undisturbed : ∀ object, events.countP (deinits object) = 0

theorem connectionActivity_cases {act : HttpActivity}
    (step : connectionActivity handler connection act = .ok (last, events)) :
    ∃ request out, activity handler connection.request act = .ok (request, out) ∧
      ((makes handler connection.request act = true ∧ events = .init connection.made :: out.map .http ∧
          last = { request, made := connection.made + 1, userCtx := some connection.made }) ∨
        (makes handler connection.request act = false ∧ events = out.map .http ∧ last = { connection with request })) := by
  unfold connectionActivity at step
  rcases acted : activity handler connection.request act with panic | ⟨request, out⟩
  · rw [acted] at step
    cases step
  · rw [acted] at step
    refine ⟨request, out, rfl, ?_⟩
    cases made : makes handler connection.request act with
    | true =>
      simp only [made, if_true] at step
      cases step
      exact .inl ⟨rfl, rfl, rfl⟩
    | false =>
      simp only [made] at step
      cases step
      exact .inr ⟨rfl, rfl, rfl⟩

theorem connectionActivity_points {act : HttpActivity} (points : PointsToLast connection)
    (step : connectionActivity handler connection act = .ok (last, events)) : PointsToLast last := by
  obtain ⟨request, out, acted, cases⟩ := connectionActivity_cases step
  have slot := activity_userCtx acted
  rcases cases with ⟨made, -, rfl⟩ | ⟨made, -, rfl⟩
  · exact ⟨by simp, by simp [slot, made]⟩
  · exact ⟨points.latest, by rw [slot, made, Bool.or_false, points.value]⟩

theorem connectionActivity_makes {act : HttpActivity}
    (step : connectionActivity handler connection act = .ok (last, events)) : Makes connection last events := by
  obtain ⟨request, out, -, cases⟩ := connectionActivity_cases step
  rcases cases with ⟨-, rfl, rfl⟩ | ⟨-, rfl, rfl⟩
  · refine ⟨by simp, fun object => ?_, fun object => by simp [deinits, Function.comp_def]⟩
    simp
    omega
  · exact ⟨le_rfl, by simp, by simp [deinits, Function.comp_def]⟩

omit [GrowthPolicy] in
theorem Makes.trans {first second third : HttpConnection T} {early late : List HandlerEvent}
    (left : Makes first second early) (right : Makes second third late) : Makes first third (early ++ late) := by
  have grows := left.grows
  have later := right.grows
  refine ⟨grows.trans later, fun object => ?_, fun object => ?_⟩
  · rw [List.mem_append, left.inits, right.inits]
    omega
  · rw [List.countP_append, left.undisturbed, right.undisturbed]

theorem activities_made {activities : List HttpActivity}
    (ran : run (connectionActivity handler) connection activities = .ok (last, events)) : Makes connection last events := by
  induction activities generalizing connection events with
  | nil =>
    cases ran
    exact ⟨le_rfl, fun object => by simp, fun object => rfl⟩
  | cons act activities ih =>
    obtain ⟨middle, head, rest, step, later, rfl⟩ := andThen_cases ran
    exact (connectionActivity_makes step).trans (ih later)

theorem activities_points {activities : List HttpActivity} (points : PointsToLast connection)
    (ran : run (connectionActivity handler) connection activities = .ok (last, events)) : PointsToLast last :=
  run_invariant PointsToLast (fun _ _ _ _ points step => connectionActivity_points points step) points ran

/-- `T.init` is not reached while `user_ctx` is set. -/
def KeepsHandler (handler : Handler T) (connection : HttpConnection T) (act : HttpActivity) : Prop :=
  connection.userCtx = none ∨ makes handler connection.request act = false

/-- In such a run there is never more than one handler. -/
theorem keeps_iff {activities : List HttpActivity} (points : PointsToLast connection)
    (ran : run (connectionActivity handler) connection activities = .ok (last, events)) :
    Always (connectionActivity handler) (KeepsHandler handler) connection activities ↔
      last.made = connection.made ∨ last.made ≤ 1 := by
  induction activities generalizing connection events with
  | nil =>
    cases ran
    simp [Always]
  | cons act activities ih =>
    obtain ⟨middle, head, rest, step, later, rfl⟩ := andThen_cases ran
    have latest := points.latest
    have grows := (activities_made later).grows
    rw [always_cons_ok step, ih (connectionActivity_points points step) later]
    obtain ⟨request, out, -, cases⟩ := connectionActivity_cases step
    rcases cases with ⟨made, -, rfl⟩ | ⟨made, -, rfl⟩
    · have empty : connection.userCtx = none ↔ connection.made = 0 := by
        rw [latest]
        split <;> simp_all
      simp only [KeepsHandler, made, empty, Bool.true_eq_false, or_false]
      dsimp only at grows
      omega
    · simp [KeepsHandler, made]

/-- Every handler of a connection is deinitialised once when none is made on top of another one. -/
theorem handlers_deinitialised_iff (handler : Handler T) (allocator : Allocator) (onDisconnect : Bool)
    {activities : List HttpActivity}
    (ran : run (connectionActivity handler) { request := { allocator } } activities = .ok (last, events)) :
    (∀ object, .init object ∈ events → (events ++ disconnect onDisconnect last).countP (deinits object) = 1) ↔
      Always (connectionActivity handler) (KeepsHandler handler) { request := { allocator } } activities := by
  have fresh : PointsToLast ({ request := { allocator } } : HttpConnection T) := ⟨rfl, rfl⟩
  have made := activities_made ran
  have latest := (activities_points fresh ran).latest
  rw [keeps_iff fresh ran]
  have released : ∀ object, (events ++ disconnect onDisconnect last).countP (deinits object) =
      if last.userCtx = some object then 1 else 0 := by
    intro object
    rw [List.countP_append, made.undisturbed, disconnect]
    cases last.userCtx with
    | none => rfl
    | some current => cases onDisconnect <;> simp [deinits, List.countP_cons]
  simp only [released, made.inits]
  constructor
  · intro once
    by_contra several
    simp only [not_or, not_le] at several
    have first := once 0 ⟨le_rfl, by omega⟩
    rw [latest, if_neg several.1] at first
    have other : some (last.made - 1) ≠ some 0 := by
      intro same
      have number := Option.some.inj same
      omega
    rw [if_neg other] at first
    cases first
  · rintro single object ⟨-, within⟩
    have only : object = last.made - 1 := by
      omega
    have some_made : last.made ≠ 0 := by omega
    rw [latest, if_neg some_made, only, if_pos rfl]

end Run

theorem handler_deinitialised_get :
    letI := scripted (getThen (text "/a") []) .ok
    letI := halfAgain
    ∃ (last : HttpConnection Unit) (events : List HandlerEvent),
      run (connectionActivity okHandler) {} [.read ((getThen (text "/a") []).map Prod.fst)] = .ok (last, events) ∧
        .init 0 ∈ events ∧
        ∀ object, .init object ∈ events → (events ++ disconnect true last).countP (deinits object) = 1 := by
  let parser := scripted (getThen (text "/a") []) .ok
  let growth := halfAgain
  obtain ⟨last, rest, ran⟩ : ∃ (last : HttpConnection Unit) (rest : List HandlerEvent),
      run (connectionActivity okHandler) {} [.read ((getThen (text "/a") []).map Prod.fst)] =
        .ok (last, .init 0 :: rest) := ⟨_, _, rfl⟩
  exact ⟨last, _, ran, by simp,
    (handlers_deinitialised_iff okHandler {} true ran).mpr ⟨.inl rfl, fun _ _ _ => trivial⟩⟩

/-- The handler of `GET /a` is lost when `GET /b` comes on the same connection. -/
theorem second_get_leaks :
    letI := scripted (getThen (text "/a") (getThen (text "/b") [])) .ok
    letI := halfAgain
    ∃ (last : HttpConnection Unit) (events : List HandlerEvent),
      run (connectionActivity okHandler) {} [.read ((getThen (text "/a") []).map Prod.fst),
          .read ((getThen (text "/b") []).map Prod.fst)] = .ok (last, events) ∧
        .init 0 ∈ events ∧ (events ++ disconnect true last).countP (deinits 0) = 0 := by
  let parser := scripted (getThen (text "/a") (getThen (text "/b") [])) .ok
  let growth := halfAgain
  refine ⟨_, _, rfl, ?_, ?_⟩
  · exact List.mem_cons_self
  · rfl

end ZapeProof
