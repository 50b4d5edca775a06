import Zape.Ape.Global

/-! What the functions on the sockets of an `ape_global` come to: each case with the state that it leaves. -/
namespace ZapeProof

open Machine ZapeModel

def stateOf (ape : Ape) (i : Nat) : Option SocketState := ape.sockets[i]?.map (·.state)

section Faults

variable {α β : Type} {ape : Ape} {i : Nat} {fault : ApeFault}

theorem avoids_bind {result : Except ApeFault α} {rest : α → Except ApeFault β} (first : result ≠ .error fault)
    (second : ∀ value, result = .ok value → rest value ≠ .error fault) : result.bind rest ≠ .error fault := by
  cases result with
  | error other =>
    rintro ⟨⟩
    exact first rfl
  | ok value => exact second value rfl

theorem avoids_map {result : Except ApeFault α} {rest : α → β} (first : result ≠ .error fault) :
    result.map rest ≠ .error fault := by
  cases result with
  | error other =>
    rintro ⟨⟩
    exact first rfl
  | ok value => rintro ⟨⟩

theorem avoids_socket (other : fault ≠ .notNow ∧ fault ≠ .freedSocket) : ape.socket i ≠ .error fault := by
  rw [Ape.socket]
  split
  · rintro ⟨⟩
    exact other.1 rfl
  · split
    · rintro ⟨⟩
      exact other.2 rfl
    · rintro ⟨⟩

theorem avoids_asUser {call : NetSocket → Except ApeFault Ape} (other : fault ≠ .notNow)
    (called : ∀ socket, ape.sockets[i]? = some socket → call socket ≠ .error fault) : ape.asUser i call ≠ .error fault := by
  rw [Ape.asUser]
  split
  · rintro ⟨⟩
    exact other rfl
  · rename_i socket here
    split
    · exact called socket here
    · rintro ⟨⟩
      exact other rfl

end Faults

/-- A socket that is to be connected, with the ports it was given. -/
def portedApe (ape : Ape) (i : Nat) (port localport : BitVec 16) : Ape :=
  ape.change i ({ · with remotePort := port, localPort := localport })

/-- The lookup `q` is done. -/
def finishedApe (ape : Ape) (q : Nat) : Ape := { ape with queries := ape.queries.modify q ({ · with done := true }) }

def dueApe (ape : Ape) (k : Nat) : Ape := { ape with timers := ape.timers.eraseIdx k }

def poppedApe (ape : Ape) (rest : List ApeFrame) : Ape := { ape with frames := rest }

/-- A client was accepted, and was announced if the server has a function for that. -/
def acceptedApe (ape : Ape) (i : Nat) (server new : NetSocket) (fd : Int) (accepted : Bool) (results : List AcceptResult) :
    Ape :=
  let client := ape.sockets.length
  let joined := (Ape.emit { ape with sockets := ape.sockets ++
      [{ new with callbacks := server.callbacks, parent := some i, state := .online, type := .client }] }
    [.accepted i fd client]).register client new.fd accepted
  if server.callbacks.onConnect.isSome then (joined.emit [.onConnect i client]).enter [.callback, .accept i results]
  else joined.enter [.accept i results]

/-- What a function of the application is called with, if it is set. -/
def calledApe (ape : Ape) (i : Nat) (set : Bool) : Ape := if set then (ape.emit [.onConnected i]).enter [.callback] else ape

/-- Each way that a step can go. -/
inductive ApeStepped (ape : Ape) : ApeCall → Ape → Prop
  | new {proto from_ opened nonblocking} :
    ApeStepped ape (.new proto from_ opened nonblocking)
      { ape with sockets := ape.sockets ++ (Ape.apeSocketNew proto from_ opened nonblocking).toList }
  | setCallbacks {i callbacks socket} (here : ape.sockets[i]? = some socket) :
    ApeStepped ape (.setCallbacks i callbacks) (ape.change i ({ · with callbacks }))
  | listenNowhere {i port bound listening accepted socket} (here : ape.sockets[i]? = some socket) (unasked : port = 0#16) :
    ApeStepped ape (.listen i port bound listening accepted) ape
  | listenFails {i port bound listening accepted socket} (here : ape.sockets[i]? = some socket) (asked : port ≠ 0#16)
      (fails : bound = false ∨ (socket.proto = .tcp ∨ socket.proto = .ssl) ∧ listening = false) :
    ApeStepped ape (.listen i port bound listening accepted) ((ape.emit [.close i]).withEvents (ape.events.close socket.fd))
  | listens {i port bound listening accepted socket} (here : ape.sockets[i]? = some socket) (asked : port ≠ 0#16)
      (succeeds : ¬ (bound = false ∨ (socket.proto = .tcp ∨ socket.proto = .ssl) ∧ listening = false)) :
    ApeStepped ape (.listen i port bound listening accepted)
      (((ape.change i fun socket => { socket with type := .server, state := .online, localPort := port }).emit
        [.listening i]).register i socket.fd accepted)
  | connectNowhere {i port localport numeric dialing next} (unasked : port = 0#16)
      (closed : ape.apeSocketClose i false = .ok next) : ApeStepped ape (.connect i port localport numeric dialing) next
  | connectUnix {i port localport numeric dialing next socket} (here : ape.sockets[i]? = some socket) (asked : port ≠ 0#16)
      (unix : socket.proto = .unix) (dialed : (portedApe ape i port localport).readyToConnect i (some dialing) = .ok next) :
    ApeStepped ape (.connect i port localport numeric dialing) next
  | connectAddress {i port localport numeric dialing next socket} (here : ape.sockets[i]? = some socket) (asked : port ≠ 0#16)
      (address : numeric = true)
      (dialed : ((portedApe ape i port localport).enter [.connect i]).readyToConnect i (some dialing) = .ok next) :
    ApeStepped ape (.connect i port localport numeric dialing) next
  | connectName {i port localport numeric dialing socket} (here : ape.sockets[i]? = some socket) (asked : port ≠ 0#16)
      (stream : socket.proto ≠ .unix) (name : numeric = false) :
    ApeStepped ape (.connect i port localport numeric dialing)
      (({ portedApe ape i port localport with queries := ape.queries ++ [{ arg := i }] } : Ape).enter
        [.ask ape.queries.length i])
  | shutdown {i waits next} (shut : ape.apeSocketShutdown i waits = .ok next) : ApeStepped ape (.shutdown i waits) next
  | shutdownNow {i next} (shut : ape.apeSocketShutdown i false = .ok next) : ApeStepped ape (.shutdownNow i) next
  | abandoned {q dialing params} (query : ape.queries[q]? = some params) (undone : params.done = false)
      (invalid : params.invalidate = true) : ApeStepped ape (.resolved q dialing) ((finishedApe ape q).paramsFree q)
  | resolved {q dialing params next} (query : ape.queries[q]? = some params) (undone : params.done = false)
      (valid : params.invalidate = false)
      (dialed : (((finishedApe ape q).emit [.called q]).enter [.answer q]).readyToConnect params.arg dialing = .ok next) :
    ApeStepped ape (.resolved q dialing) next
  | ares {call ares} (stepped : ape.ares.step call = .ok ares) : ApeStepped ape (.ares call) { ape with ares }
  | established {i socket} (idle : ape.frames = []) (here : ape.sockets[i]? = some socket)
      (progress : socket.state = .progress) :
    ApeStepped ape (.established i false) (calledApe ((ape.change i ({ · with state := .online })).emit [.established i]) i
      socket.callbacks.onConnected.isSome)
  | unestablished {i next} (idle : ape.frames = []) (closed : ape.apeSocketClose i false = .ok next) :
    ApeStepped ape (.established i true) next
  | ended {i next} (idle : ape.frames = []) (closed : ape.apeSocketClose i false = .ok next) : ApeStepped ape (.ended i) next
  | acceptable {i results} (idle : ape.frames = []) : ApeStepped ape (.acceptable i results) (ape.enter [.accept i results])
  | socketFree {k i socket} (idle : ape.frames = []) (due : ape.timers[k]? = some (.socketFree i))
      (here : ape.sockets[i]? = some socket) : ApeStepped ape (.timer k) ((dueApe ape k).change i ({ · with freed := true }))
  | socketDestroy {k i next} (idle : ape.frames = []) (due : ape.timers[k]? = some (.socketDestroy i))
      (closed : (dueApe ape k).apeSocketClose i true = .ok next) : ApeStepped ape (.timer k) next
  | socketConnected {k i socket} (idle : ape.frames = []) (due : ape.timers[k]? = some (.socketConnected i))
      (here : ape.sockets[i]? = some socket) :
    ApeStepped ape (.timer k) (calledApe (dueApe ape k) i socket.callbacks.onConnected.isSome)
  | paramsFree {k q} (idle : ape.frames = []) (due : ape.timers[k]? = some (.paramsFree q)) :
    ApeStepped ape (.timer k) ((dueApe ape k).paramsFree q)
  | returned {rest} (frames : ape.frames = .callback :: rest) : ApeStepped ape .resume (poppedApe ape rest)
  | closes {i now rest socket} (frames : ape.frames = .close i now :: rest) (here : ape.sockets[i]? = some socket) :
    ApeStepped ape .resume
      (let closed := ((poppedApe ape rest).emit [.close i]).withEvents (ape.events.close socket.fd).eventsDel
      if now then closed.change i ({ · with freed := true }) else closed.dispatch (.socketFree i))
  | answered {q rest} (frames : ape.frames = .answer q :: rest) :
    ApeStepped ape .resume ((poppedApe ape rest).dispatch (.paramsFree q))
  | asked {q i rest params} (frames : ape.frames = .ask q i :: rest) (record : ape.queries[q]? = some params) :
    ApeStepped ape .resume ((poppedApe ape rest).change i ({ · with dnsState := if params.done then none else some q }))
  | connected {i rest} (frames : ape.frames = .connect i :: rest) :
    ApeStepped ape .resume ((poppedApe ape rest).change i ({ · with dnsState := none }))
  | drained {i rest} (frames : ape.frames = .accept i [] :: rest) :
    ApeStepped ape .resume ((poppedApe ape rest).emit [.drained i])
  | interrupted {i results rest} (frames : ape.frames = .accept i (.eintr :: results) :: rest) :
    ApeStepped ape .resume ((poppedApe ape rest).enter [.accept i results])
  | aborted {i results rest} (frames : ape.frames = .accept i (.econnaborted :: results) :: rest) :
    ApeStepped ape .resume (poppedApe ape rest)
  | accepted {i fd opened nonblocking accepted results rest socket new}
      (frames : ape.frames = .accept i (.descriptor fd opened nonblocking accepted :: results) :: rest)
      (here : ape.sockets[i]? = some socket) (opens : Ape.apeSocketNew socket.proto fd opened nonblocking = some new) :
    ApeStepped ape .resume (acceptedApe (poppedApe ape rest) i socket new fd accepted results)

section Cases

variable {ape next : Ape} {i : Nat}

theorem either_ape {property : Ape → Prop} {condition : Prop} [Decidable condition] {first second : Ape}
    (left : property first) (right : property second) : property (if condition then first else second) := by
  split
  · exact left
  · exact right

theorem socket_some {socket : NetSocket} (found : ape.socket i = .ok socket) :
    ape.sockets[i]? = some socket ∧ socket.freed = false := by
  rw [Ape.socket] at found
  split at found
  · cases found
  · split at found
    · cases found
    · rename_i here live
      cases found
      exact ⟨here, Bool.eq_false_of_not_eq_true live⟩

theorem socket_of {socket : NetSocket} (here : ape.sockets[i]? = some socket) (live : socket.freed = false) :
    ape.socket i = .ok socket := by
  rw [Ape.socket, here]
  exact if_neg (by simp [live])

theorem asUser_some {call : NetSocket → Except ApeFault Ape} (done : ape.asUser i call = .ok next) :
    ∃ socket, ape.sockets[i]? = some socket ∧ socket.freed = false ∧ ape.userRuns = true ∧ call socket = .ok next := by
  rw [Ape.asUser] at done
  split at done
  · cases done
  · rename_i socket here
    split at done
    · rename_i allowed
      exact ⟨socket, here, allowed.2, allowed.1, done⟩
    · cases done

/-- The lookups once that of a socket is invalidated. -/
def invalidated (ape : Ape) : Option Nat → List DnsQuery
  | none => ape.queries
  | some q => ape.queries.modify q ({ · with invalidate := true })

theorem invalidate_some {state : Option Nat} (done : ape.apeDnsInvalidate state = .ok next) :
    next = { ape with queries := invalidated ape state } := by
  cases state with
  | none =>
    cases done
    rfl
  | some q =>
    simp only [Ape.apeDnsInvalidate] at done
    split at done
    · cases done
    · split at done
      · cases done
      · cases done
        rfl

/-- What `ape_socket_close` logs until it waits for its callback, and what it waits for. -/
def offlineEvents (i : Nat) (reported : Bool) : List ApeEvent :=
  if reported then [.offline i true, .onDisconnect i] else [.offline i false]

def closeFrames (i : Nat) (now reported : Bool) : List ApeFrame :=
  if reported then [.callback, .close i now] else [.close i now]

/-- The state that `ape_socket_close` leaves for its callback. -/
def closingApe (ape : Ape) (i : Nat) (socket : NetSocket) (now : Bool) : Ape :=
  { ape with
    queries := invalidated ape socket.dnsState
    sockets := ape.sockets.modify i ({ · with state := .offline })
    log := ape.log ++ offlineEvents i socket.callbacks.onDisconnect.isSome
    frames := closeFrames i now socket.callbacks.onDisconnect.isSome ++ ape.frames }

theorem close_cases {now : Bool} (done : ape.apeSocketClose i now = .ok next) :
    ∃ socket, ape.sockets[i]? = some socket ∧ socket.freed = false ∧
      (socket.state = .offline ∧ next = ape ∨ socket.state ≠ .offline ∧ next = closingApe ape i socket now) := by
  obtain ⟨socket, found, done⟩ := returned_bind done
  obtain ⟨here, live⟩ := socket_some found
  refine ⟨socket, here, live, ?_⟩
  split at done
  · rename_i offline
    cases done
    exact .inl ⟨offline, rfl⟩
  · rename_i open_
    obtain ⟨middle, invalid, done⟩ := returned_map done
    rw [invalidate_some invalid] at done
    refine .inr ⟨open_, ?_⟩
    rw [← done]
    cases reported : socket.callbacks.onDisconnect.isSome with
    | true =>
      simp only [closingApe, offlineEvents, closeFrames, reported, if_true]
      rfl
    | false =>
      simp only [closingApe, offlineEvents, closeFrames, reported]
      rfl

/-- The state in which `ape_socket_connect_ready_to_connect` begins to dial. -/
def dialingApe (ape : Ape) (i : Nat) (state : SocketState) : Ape :=
  { ape with
    log := ape.log ++ [.dialed i state]
    sockets := ape.sockets.modify i ({ · with dnsState := none }) }

def startedApe (ape : Ape) (i : Nat) (socket : NetSocket) (accepted : Bool) : Ape :=
  let started := (ape.change i fun old => { old with
    type := .client
    state := if socket.proto = .udp then .online else .progress }).register i socket.fd accepted
  if socket.proto = .udp then started.dispatch (.socketConnected i) else started

theorem ready_cases {dialing : Option Dialing} (done : ape.readyToConnect i dialing = .ok next) :
    ∃ socket, ape.sockets[i]? = some socket ∧ socket.freed = false ∧
      ((dialing.all fun dialing => dialing.dial socket.localPort = .refused) = true ∧
          (dialingApe ape i socket.state).apeSocketClose i false = .ok next ∨
        (∃ dialing', dialing = some dialing' ∧ dialing'.dial socket.localPort = .unbound) ∧
          next = dialingApe ape i socket.state ∨
        ∃ dialing', dialing = some dialing' ∧ dialing'.dial socket.localPort = .started ∧
          next = startedApe (dialingApe ape i socket.state) i socket dialing'.accepted) := by
  obtain ⟨socket, found, done⟩ := returned_bind done
  obtain ⟨here, live⟩ := socket_some found
  refine ⟨socket, here, live, ?_⟩
  cases dialing with
  | none => exact .inl ⟨rfl, done⟩
  | some dialing =>
    cases dialed : dialing.dial socket.localPort with
    | unbound =>
      simp only [dialed] at done
      cases done
      exact .inr (.inl ⟨⟨dialing, rfl, dialed⟩, rfl⟩)
    | refused =>
      simp only [dialed] at done
      exact .inl ⟨by simp [dialed], done⟩
    | started =>
      simp only [dialed] at done
      cases done
      exact .inr (.inr ⟨dialing, rfl, dialed, rfl⟩)

theorem shutdown_cases {waits : Bool} (done : ape.apeSocketShutdown i waits = .ok next) :
    ∃ socket, ape.sockets[i]? = some socket ∧ socket.freed = false ∧
      (next = ape ∨
        (socket.state = .progress ∨ socket.state = .pending) ∧ ape.apeSocketClose i false = .ok next ∨
        socket.state = .online ∧ socket.type = .server ∧
          (ape.change i ({ · with state := .shutdown })).apeSocketClose i false = .ok next ∨
        socket.state = .online ∧ socket.type ≠ .server ∧
          next = (ape.change i ({ · with state := .shutdown })).dispatch (.socketDestroy i)) := by
  obtain ⟨socket, found, done⟩ := returned_bind done
  obtain ⟨here, live⟩ := socket_some found
  refine ⟨socket, here, live, ?_⟩
  split at done
  · cases done
    exact .inl rfl
  · rename_i progress
    exact .inr (.inl ⟨.inl progress, done⟩)
  · rename_i pending
    exact .inr (.inl ⟨.inr pending, done⟩)
  · cases done
    exact .inl rfl
  · rename_i online
    split at done
    · cases done
      exact .inl rfl
    · rw [Ape.apeShutdown, found] at done
      dsimp only [Except.bind] at done
      rw [if_neg (by simp [online])] at done
      split at done
      · rename_i server
        exact .inr (.inr (.inl ⟨online, server, done⟩))
      · rename_i client
        cases done
        exact .inr (.inr (.inr ⟨online, client, rfl⟩))

/-- `APE_socket_new` fills in the descriptor, which another one replaces where it is given 0, and the protocol. -/
theorem new_some {proto : SocketProto} {from_ : Int} {opened : Option Int} {nonblocking : Bool} {new : NetSocket}
    (opens : Ape.apeSocketNew proto from_ opened nonblocking = some new) :
    nonblocking = true ∧ ∃ sock, (if from_ = 0 then opened else some from_) = some sock ∧ new = { fd := sock, proto } := by
  rw [Ape.apeSocketNew] at opens
  split at opens
  · rename_i isNonblocking
    obtain ⟨sock, given, rfl⟩ := Option.map_eq_some_iff.mp opens
    exact ⟨isNonblocking, sock, given, rfl⟩
  · cases opens

theorem resume_cases (done : ape.resume = .ok next) : ApeStepped ape .resume next := by
  rw [Ape.resume] at done
  cases frames : ape.frames with
  | nil =>
    rw [frames] at done
    cases done
  | cons frame rest =>
    rw [frames] at done
    cases frame with
    | callback =>
      cases done
      exact .returned frames
    | close i now =>
      obtain ⟨socket, found, rfl⟩ := returned_map done
      exact .closes frames (socket_some found).1
    | answer q =>
      simp only at done
      split at done
      · cases done
      · cases done
        exact .answered frames
    | ask q i =>
      simp only at done
      split at done
      · cases done
      · rename_i params record
        split at done
        · cases done
        · obtain ⟨socket, -, rfl⟩ := returned_map done
          exact .asked frames record
    | connect i =>
      obtain ⟨socket, -, rfl⟩ := returned_map done
      exact .connected frames
    | accept i results =>
      cases results with
      | nil =>
        cases done
        exact .drained frames
      | cons result results =>
        cases result with
        | eintr =>
          cases done
          exact .interrupted frames
        | econnaborted =>
          cases done
          exact .aborted frames
        | descriptor fd opened nonblocking accepted =>
          obtain ⟨socket, found, done⟩ := returned_bind done
          split at done
          · cases done
          · rename_i new opens
            cases done
            exact .accepted frames (socket_some found).1 opens

theorem connect_cases {socket : NetSocket} {port localport : BitVec 16} {numeric : Bool} {dialing : Dialing}
    (here : ape.sockets[i]? = some socket) (done : ape.apeSocketConnect i socket port localport numeric dialing = .ok next) :
    ApeStepped ape (.connect i port localport numeric dialing) next := by
  rw [Ape.apeSocketConnect] at done
  split at done
  · rename_i unasked
    exact .connectNowhere unasked done
  · rename_i asked
    dsimp only at done
    split at done
    · rename_i unix
      exact .connectUnix here asked unix done
    · rename_i stream
      split at done
      · rename_i address
        exact .connectAddress here asked address done
      · rename_i name
        cases done
        exact .connectName here asked stream (Bool.eq_false_of_not_eq_true name)

theorem resolved_cases {q : Nat} {dialing : Option Dialing} (done : ape.aresGethostbynameCb q dialing = .ok next) :
    ApeStepped ape (.resolved q dialing) next := by
  rw [Ape.aresGethostbynameCb] at done
  split at done
  · cases done
  · rename_i params query
    dsimp only at done
    split at done
    · cases done
    · rename_i undone
      have undone := Bool.eq_false_of_not_eq_true undone
      split at done
      · rename_i invalid
        cases done
        exact .abandoned query undone invalid
      · rename_i valid
        split at done
        · cases done
        · exact .resolved query undone (Bool.eq_false_of_not_eq_true valid) done

theorem timer_cases {k : Nat} (idle : ape.frames = []) (done : ape.timerPass k = .ok next) :
    ApeStepped ape (.timer k) next := by
  rw [Ape.timerPass] at done
  split at done
  · cases done
  · rename_i async due
    cases async with
    | socketFree i =>
      obtain ⟨socket, found, rfl⟩ := returned_map done
      exact .socketFree idle due (socket_some found).1
    | socketDestroy i => exact .socketDestroy idle due done
    | socketConnected i =>
      obtain ⟨socket, found, rfl⟩ := returned_map done
      exact .socketConnected idle due (socket_some found).1
    | paramsFree q =>
      rw [Ape.runAsync] at done
      split at done
      · cases done
      · cases done
        exact .paramsFree idle due

theorem guarded_cases {allowed : Bool} {result : Except ApeFault Ape}
    (done : (if allowed then result else .error .notNow) = .ok next) : allowed = true ∧ result = .ok next := by
  split at done
  · rename_i isAllowed
    exact ⟨isAllowed, done⟩
  · cases done

theorem ape_step_cases {call : ApeCall} (done : ape.step call = .ok next) : ApeStepped ape call next := by
  cases call with
  | new proto from_ opened nonblocking =>
    obtain ⟨-, done⟩ := guarded_cases done
    cases done
    exact .new
  | setCallbacks i callbacks =>
    obtain ⟨socket, here, -, -, done⟩ := asUser_some done
    cases done
    exact .setCallbacks here
  | listen i port bound listening accepted =>
    obtain ⟨socket, here, -, -, done⟩ := asUser_some done
    cases done
    rw [Ape.apeSocketListen]
    dsimp only
    split
    · rename_i unasked
      exact .listenNowhere here unasked
    · rename_i asked
      split
      · rename_i fails
        exact .listenFails here asked fails
      · rename_i succeeds
        exact .listens here asked succeeds
  | connect i port localport numeric dialing =>
    obtain ⟨socket, here, -, -, done⟩ := asUser_some done
    exact connect_cases here done
  | shutdown i waits =>
    obtain ⟨socket, -, -, -, done⟩ := asUser_some done
    exact .shutdown done
  | shutdownNow i =>
    obtain ⟨socket, -, -, -, done⟩ := asUser_some done
    exact .shutdownNow done
  | resolved q dialing =>
    obtain ⟨-, done⟩ := guarded_cases done
    exact resolved_cases done
  | ares call =>
    obtain ⟨-, done⟩ := guarded_cases done
    split at done
    · cases done
    · rename_i stepped
      cases done
      exact .ares stepped
  | established i serror =>
    obtain ⟨idle, done⟩ := guarded_cases done
    have idle : ape.frames = [] := List.isEmpty_iff.mp idle
    obtain ⟨socket, found, done⟩ := returned_bind done
    split at done
    · cases done
    · rename_i progress
      rw [not_or, not_not, not_not] at progress
      cases serror with
      | true => exact .unestablished idle done
      | false =>
        cases done
        exact .established idle (socket_some found).1 progress.2
  | ended i =>
    obtain ⟨idle, done⟩ := guarded_cases done
    obtain ⟨socket, -, done⟩ := returned_bind done
    split at done
    · cases done
    · exact .ended (List.isEmpty_iff.mp idle) done
  | acceptable i results =>
    obtain ⟨idle, done⟩ := guarded_cases done
    obtain ⟨socket, -, done⟩ := returned_bind done
    split at done
    · cases done
      exact .acceptable (List.isEmpty_iff.mp idle)
    · cases done
  | timer k =>
    obtain ⟨idle, done⟩ := guarded_cases done
    exact timer_cases (List.isEmpty_iff.mp idle) done
  | resume => exact resume_cases done

end Cases

end ZapeProof
