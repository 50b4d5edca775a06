import Zape.Ape.Descriptors

/-! What a step leaves alone: every socket but the one that it is about, and every function that waits already. -/
namespace ZapeProof

open Machine ZapeModel

/-- The socket that a call is about. -/
def aboutSocket (ape : Ape) : ApeCall → Option Nat
  | .setCallbacks i _ => some i
  | call => touchedSocket ape call

def frameSocket : ApeFrame → Option Nat
  | .close i _ => some i
  | .ask _ i => some i
  | .connect i => some i
  | _ => none

def isAccept : ApeFrame → Bool
  | .accept _ _ => true
  | _ => false

/-- No turn of `ape_socket_accept` logs this, and no socket is registered but the one. -/
def EventAbout (about : Option Nat) : ApeEvent → Prop
  | .registered i _ => about = some i
  | .accepted _ _ _ => False
  | .onConnect _ _ => False
  | .drained _ => False
  | _ => True

def FrameAbout (about : Option Nat) (frame : ApeFrame) : Prop :=
  isAccept frame = false ∧ ∀ i, frameSocket frame = some i → about = some i

/-- The step is about one socket, or none. -/
structure Aside (ape next : Ape) (about : Option Nat) : Prop where
  sockets : ∀ j socket, about ≠ some j → ape.sockets[j]? = some socket → next.sockets[j]? = some socket
  length : ape.sockets.length ≤ next.sockets.length
  log : ∃ events, next.log = ape.log ++ events ∧ ∀ event ∈ events, EventAbout about event
  frames : ∃ frames, next.frames = frames ++ ape.frames ∧ ∀ frame ∈ frames, FrameAbout about frame

section Parts

variable {ape middle next : Ape} {about : Option Nat} {i : Nat}

theorem aside_same (sockets : next.sockets = ape.sockets) (log : next.log = ape.log) (frames : next.frames = ape.frames) :
    Aside ape next about where
  sockets j socket _ here := by rwa [sockets]
  length := by rw [sockets]
  log := ⟨[], by rw [log, List.append_nil], fun _ member => by cases member⟩
  frames := ⟨[], frames, fun _ member => by cases member⟩

theorem aside_trans (first : Aside ape middle about) (second : Aside middle next about) : Aside ape next about where
  sockets j socket other here := second.sockets j socket other (first.sockets j socket other here)
  length := Nat.le_trans first.length second.length
  log := by
    obtain ⟨events, log, about⟩ := first.log
    obtain ⟨events', log', about'⟩ := second.log
    refine ⟨events ++ events', by rw [log', log, List.append_assoc], fun event member => ?_⟩
    exact (List.mem_append.mp member).elim (about event) (about' event)
  frames := by
    obtain ⟨frames, entered, about⟩ := first.frames
    obtain ⟨frames', entered', about'⟩ := second.frames
    refine ⟨frames' ++ frames, by rw [entered', entered, List.append_assoc], fun frame member => ?_⟩
    exact (List.mem_append.mp member).elim (about' frame) (about frame)

theorem aside_change (f : NetSocket → NetSocket) : Aside ape (ape.change i f) (some i) where
  sockets j socket other here := by
    rw [Ape.change, List.getElem?_modify_ne _ _ fun same => other (congrArg some same)]
    exact here
  length := by rw [Ape.change, List.length_modify]
  log := ⟨[], (List.append_nil _).symm, fun _ member => by cases member⟩
  frames := ⟨[], rfl, fun _ member => by cases member⟩

theorem aside_log {events : List ApeEvent} (others : ∀ event ∈ events, EventAbout about event) :
    Aside ape { ape with log := ape.log ++ events } about where
  sockets _ _ _ here := here
  length := Nat.le_refl _
  log := ⟨events, rfl, others⟩
  frames := ⟨[], rfl, fun _ member => by cases member⟩

theorem aside_enter {frames : List ApeFrame} (others : ∀ frame ∈ frames, FrameAbout about frame) :
    Aside ape (ape.enter frames) about where
  sockets _ _ _ here := here
  length := Nat.le_refl _
  log := ⟨[], (List.append_nil _).symm, fun _ member => by cases member⟩
  frames := ⟨frames, rfl, others⟩

theorem aside_append {new : List NetSocket} : Aside ape { ape with sockets := ape.sockets ++ new } about where
  sockets j socket _ here := by
    rw [List.getElem?_append_left (List.getElem?_eq_some_iff.mp here).1]
    exact here
  length := by
    rw [List.length_append]
    exact Nat.le_add_right _ _
  log := ⟨[], (List.append_nil _).symm, fun _ member => by cases member⟩
  frames := ⟨[], rfl, fun _ member => by cases member⟩

theorem aside_register {fd : Int} {accepted : Bool} : Aside ape (ape.register i fd accepted) (some i) := by
  have watched : Aside ape (ape.withEvents (ape.events.eventsAdd fd (.socket i) (eventRead ||| eventWrite) accepted).1)
      (some i) := aside_same rfl rfl rfl
  refine aside_trans watched (@aside_log (ape.withEvents _) (some i) _ ?_)
  simp [EventAbout]

theorem aside_closing {socket : NetSocket} {now : Bool} : Aside ape (closingApe ape i socket now) (some i) where
  sockets j socket other here := by
    rw [closingApe, List.getElem?_modify_ne _ _ fun same => other (congrArg some same)]
    exact here
  length := by rw [closingApe, List.length_modify]
  log := by
    refine ⟨_, rfl, ?_⟩
    cases socket.callbacks.onDisconnect.isSome <;> simp [offlineEvents, EventAbout]
  frames := by
    refine ⟨_, rfl, ?_⟩
    cases socket.callbacks.onDisconnect.isSome <;> simp [closeFrames, FrameAbout, isAccept, frameSocket]

theorem aside_close {now : Bool} (done : ape.apeSocketClose i now = .ok next) : Aside ape next (some i) := by
  obtain ⟨socket, -, -, ⟨-, rfl⟩ | ⟨-, rfl⟩⟩ := close_cases done
  · exact aside_same rfl rfl rfl
  · exact aside_closing

theorem aside_ready {dialing : Option Dialing} (done : ape.readyToConnect i dialing = .ok next) :
    Aside ape next (some i) := by
  obtain ⟨socket, -, -, outcome⟩ := ready_cases done
  have begins : Aside ape (dialingApe ape i socket.state) (some i) :=
    aside_trans (@aside_log ape (some i) [.dialed i socket.state] (by simp [EventAbout])) (aside_change _)
  rcases outcome with ⟨-, closed⟩ | ⟨-, rfl⟩ | ⟨dialing, -, -, rfl⟩
  · exact aside_trans begins (aside_close closed)
  · exact begins
  · have started := aside_trans begins (aside_trans (aside_change fun old => { old with
        type := .client
        state := if socket.proto = .udp then .online else .progress })
      (@aside_register _ i socket.fd dialing.accepted))
    apply @either_ape (Aside ape · (some i))
    · exact aside_trans started (aside_same rfl rfl rfl)
    · exact started

theorem aside_shutdown {waits : Bool} (done : ape.apeSocketShutdown i waits = .ok next) : Aside ape next (some i) := by
  obtain ⟨socket, -, -, rfl | ⟨-, closed⟩ | ⟨-, -, closed⟩ | ⟨-, -, rfl⟩⟩ := shutdown_cases done
  · exact aside_same rfl rfl rfl
  · exact aside_close closed
  · exact aside_trans (aside_change _) (aside_close closed)
  · exact aside_trans (aside_change _) (aside_same rfl rfl rfl)

end Parts

section Steps

variable {ape next : Ape}

/-- The socket of a lookup that is still valid. -/
theorem about_resolved {q : Nat} {params : DnsQuery} {dialing : Option Dialing} (query : ape.queries[q]? = some params)
    (valid : params.invalidate = false) : aboutSocket ape (.resolved q dialing) = some params.arg := by
  simp [aboutSocket, touchedSocket, query, Option.filter, valid]

/-- A call, while a function waits. -/
theorem aside_step {call : ApeCall} (waiting : ape.frames ≠ []) (other : call ≠ .resume) (done : ape.step call = .ok next) :
    Aside ape next (aboutSocket ape call) := by
  cases ape_step_cases done with
  | new => exact aside_append
  | setCallbacks here => exact aside_change _
  | listenNowhere here unasked => exact aside_same rfl rfl rfl
  | @listenFails j => exact aside_trans (@aside_log ape (some j) [.close j] (by simp [EventAbout])) (aside_same rfl rfl rfl)
  | @listens j =>
    have listens := fun f => @aside_log (ape.change j f) (some j) [.listening j] (by simp [EventAbout])
    exact aside_trans (aside_trans (aside_change _) (listens _)) aside_register
  | connectNowhere unasked closed => exact aside_close closed
  | connectUnix here asked unix dialed => exact aside_trans (aside_change _) (aside_ready dialed)
  | @connectAddress j port localport numeric dialing next socket here asked address dialed =>
    have entered : Aside (portedApe ape j port localport) ((portedApe ape j port localport).enter [.connect j]) (some j) :=
      aside_enter (by simp [FrameAbout, isAccept, frameSocket])
    exact aside_trans (aside_trans (aside_change _) entered) (aside_ready dialed)
  | @connectName j port localport =>
    have asking : Aside (portedApe ape j port localport) ((portedApe ape j port localport).enter [.ask ape.queries.length j])
        (some j) := aside_enter (by simp [FrameAbout, isAccept, frameSocket])
    exact aside_trans (aside_change _) (aside_trans asking (aside_same rfl rfl rfl))
  | shutdown shut => exact aside_shutdown shut
  | shutdownNow shut => exact aside_shutdown shut
  | @abandoned q => exact aside_trans (@aside_log ape _ [.paramsFree q] (by simp [EventAbout])) (aside_same rfl rfl rfl)
  | @resolved q dialing params next query undone valid dialed =>
    rw [about_resolved query valid]
    have finished : Aside ape (finishedApe ape q) (some params.arg) := aside_same rfl rfl rfl
    have called := aside_trans finished (@aside_log _ (some params.arg) [.called q] (by simp [EventAbout]))
    refine aside_trans (aside_trans called (@aside_enter _ _ [.answer q] ?_)) (aside_ready dialed)
    simp [FrameAbout, isAccept, frameSocket]
  | ares stepped => exact aside_same rfl rfl rfl
  | established idle => exact absurd idle waiting
  | unestablished idle => exact absurd idle waiting
  | ended idle => exact absurd idle waiting
  | acceptable idle => exact absurd idle waiting
  | socketFree idle => exact absurd idle waiting
  | socketDestroy idle => exact absurd idle waiting
  | socketConnected idle => exact absurd idle waiting
  | paramsFree idle => exact absurd idle waiting
  | _ => exact absurd rfl other

/-- A function goes on, other than `ape_socket_accept`. -/
theorem aside_resume {frame : ApeFrame} {rest : List ApeFrame} (frames : ape.frames = frame :: rest)
    (other : isAccept frame = false) (done : ape.resume = .ok next) :
    Aside (poppedApe ape rest) next (frameSocket frame) := by
  cases resume_cases done with
  | returned frames' =>
    cases frames.symm.trans frames'
    exact aside_same rfl rfl rfl
  | @closes j now rest' socket frames' here =>
    cases frames.symm.trans frames'
    have closed : Aside (poppedApe ape rest) (((poppedApe ape rest).emit [.close j]).withEvents
        (ape.events.close socket.fd).eventsDel) (some j) :=
      aside_trans (@aside_log (poppedApe ape rest) (some j) [.close j] (by simp [EventAbout])) (aside_same rfl rfl rfl)
    dsimp only
    split
    · exact aside_trans closed (aside_change _)
    · exact aside_trans closed (aside_same rfl rfl rfl)
  | answered frames' =>
    cases frames.symm.trans frames'
    exact aside_same rfl rfl rfl
  | asked frames' record =>
    cases frames.symm.trans frames'
    exact aside_change _
  | connected frames' =>
    cases frames.symm.trans frames'
    exact aside_change _
  | drained frames' =>
    cases frames.symm.trans frames'
    cases other
  | interrupted frames' =>
    cases frames.symm.trans frames'
    cases other
  | aborted frames' =>
    cases frames.symm.trans frames'
    cases other
  | accepted frames' here opens =>
    cases frames.symm.trans frames'
    cases other

theorem there_of {socket : NetSocket} {j k : Nat} (here : ape.sockets[k]? = some socket) (same : some k = some j) :
    j < ape.sockets.length := by
  cases same
  exact (List.getElem?_eq_some_iff.mp here).1

/-- The socket that a call is about is there. -/
theorem about_there {call : ApeCall} {j : Nat} (waiting : ape.frames ≠ []) (done : ape.step call = .ok next)
    (about : aboutSocket ape call = some j) : j < ape.sockets.length := by
  cases ape_step_cases done with
  | setCallbacks here => exact there_of here about
  | listenNowhere here => exact there_of here about
  | listenFails here => exact there_of here about
  | listens here => exact there_of here about
  | connectNowhere unasked closed =>
    obtain ⟨socket, here, -⟩ := close_cases closed
    exact there_of here about
  | connectUnix here => exact there_of here about
  | connectAddress here => exact there_of here about
  | connectName here => exact there_of here about
  | shutdown shut =>
    obtain ⟨socket, here, -⟩ := shutdown_cases shut
    exact there_of here about
  | shutdownNow shut =>
    obtain ⟨socket, here, -⟩ := shutdown_cases shut
    exact there_of here about
  | abandoned query undone invalid => simp [aboutSocket, touchedSocket, query, Option.filter, invalid] at about
  | resolved query undone valid dialed =>
    obtain ⟨socket, here, -⟩ := ready_cases dialed
    exact there_of here ((about_resolved query valid).symm.trans about)
  | established idle => exact absurd idle waiting
  | unestablished idle => exact absurd idle waiting
  | ended idle => exact absurd idle waiting
  | socketFree idle => exact absurd idle waiting
  | socketDestroy idle => exact absurd idle waiting
  | socketConnected idle => exact absurd idle waiting
  | paramsFree idle => exact absurd idle waiting
  | _ => cases about

end Steps

section Clients

variable {ape : Ape} {i : Nat}

/-- Only a turn of `ape_socket_accept` has a client that may be `NULL`. -/
theorem named_close {now : Bool} : ape.apeSocketClose i now ≠ .error .nullClient := by
  apply avoids_bind (avoids_socket (by simp))
  intro socket _
  split
  · rintro ⟨⟩
  · apply avoids_map
    cases socket.dnsState with
    | none => rintro ⟨⟩
    | some q =>
      simp only [Ape.apeDnsInvalidate]
      split
      · rintro ⟨⟩
      · split <;> rintro ⟨⟩

theorem named_ready {dialing : Option Dialing} : ape.readyToConnect i dialing ≠ .error .nullClient := by
  apply avoids_bind (avoids_socket (by simp))
  intro socket _
  cases dialing with
  | none => exact named_close
  | some dialing =>
    simp only
    split
    · rintro ⟨⟩
    · exact named_close
    · rintro ⟨⟩

theorem named_shutdown {waits : Bool} : ape.apeSocketShutdown i waits ≠ .error .nullClient := by
  apply avoids_bind (avoids_socket (by simp))
  intro socket found
  split
  · rintro ⟨⟩
  · exact named_close
  · exact named_close
  · rintro ⟨⟩
  · split
    · rintro ⟨⟩
    · apply avoids_bind (avoids_socket (by simp))
      intro socket _
      split
      · rintro ⟨⟩
      · dsimp only
        split
        · exact named_close
        · rintro ⟨⟩

theorem named_step {call : ApeCall} (waiting : ape.frames ≠ []) (other : call ≠ .resume) :
    ape.step call ≠ .error .nullClient := by
  have busy : ape.idle = false := by
    rw [Ape.idle, List.isEmpty_eq_false_iff]
    exact waiting
  cases call with
  | new proto from_ opened nonblocking =>
    rw [Ape.step]
    split <;> rintro ⟨⟩
  | setCallbacks i callbacks => exact avoids_asUser (by simp) fun _ _ => by rintro ⟨⟩
  | listen i port bound listening accepted => exact avoids_asUser (by simp) fun _ _ => by rintro ⟨⟩
  | connect i port localport numeric dialing =>
    apply avoids_asUser (by simp)
    intro socket _
    rw [Ape.apeSocketConnect]
    split
    · exact named_close
    · dsimp only
      split
      · exact named_ready
      · split
        · exact named_ready
        · rintro ⟨⟩
  | shutdown i waits => exact avoids_asUser (by simp) fun _ _ => named_shutdown
  | shutdownNow i => exact avoids_asUser (by simp) fun _ _ => named_shutdown
  | resolved q dialing =>
    rw [Ape.step]
    split
    · rw [Ape.aresGethostbynameCb]
      split
      · rintro ⟨⟩
      · dsimp only
        split
        · rintro ⟨⟩
        · split
          · rintro ⟨⟩
          · split
            · rintro ⟨⟩
            · exact named_ready
    · rintro ⟨⟩
  | ares call =>
    rw [Ape.step]
    split
    · split <;> rintro ⟨⟩
    · rintro ⟨⟩
  | established i serror =>
    rw [Ape.step, busy]
    rintro ⟨⟩
  | ended i =>
    rw [Ape.step, busy]
    rintro ⟨⟩
  | acceptable i results =>
    rw [Ape.step, busy]
    rintro ⟨⟩
  | timer k =>
    rw [Ape.step, busy]
    rintro ⟨⟩
  | resume => exact absurd rfl other

theorem named_resume {frame : ApeFrame} {rest : List ApeFrame} (frames : ape.frames = frame :: rest)
    (other : isAccept frame = false) : ape.resume ≠ .error .nullClient := by
  rw [Ape.resume, frames]
  cases frame with
  | callback => rintro ⟨⟩
  | close j now => exact avoids_map (avoids_socket (by simp))
  | answer q =>
    dsimp only
    split <;> rintro ⟨⟩
  | ask q j =>
    dsimp only
    split
    · rintro ⟨⟩
    · split
      · rintro ⟨⟩
      · exact avoids_map (avoids_socket (by simp))
  | connect j => exact avoids_map (avoids_socket (by simp))
  | accept j results => cases other

end Clients

end ZapeProof
