import Zape.Ape.Moves

/-! How often the descriptor of a socket is passed to `close`. -/
namespace ZapeProof

open Machine ZapeModel

def closesOf (ape : Ape) (i : Nat) : Nat := ape.log.count (.close i)

/-- `ape_socket_close` waits to close the descriptor. -/
def isClosing (i : Nat) : ApeFrame → Bool
  | .close j _ => j == i
  | _ => false

def closingOf (ape : Ape) (i : Nat) : Nat := ape.frames.countP (isClosing i)

/-- The socket that a step may close, or give another state. -/
def touchedSocket (ape : Ape) : ApeCall → Option Nat
  | .listen i _ _ _ _ => some i
  | .connect i _ _ _ _ => some i
  | .shutdown i _ => some i
  | .shutdownNow i => some i
  | .resolved q _ => (ape.queries[q]?.filter fun params => !params.invalidate).map (·.arg)
  | .established i _ => some i
  | .ended i => some i
  | .timer k =>
    match ape.timers[k]? with
    | some (.socketDestroy i) => some i
    | _ => none
  | _ => none

def opens : ApeCall → Bool
  | .listen _ _ _ _ _ => true
  | .connect _ _ _ _ _ => true
  | .resolved _ _ => true
  | _ => false

/-- The descriptor of the socket was not closed yet; a call that can only close it may also find that `ape_socket_close` has
    taken effect. -/
def findsOpen (ape : Ape) (call : ApeCall) : Bool :=
  (touchedSocket ape call).all fun i =>
    (closesOf ape i = 0 && stateOf ape i ≠ some .offline) || (!opens call && stateOf ape i = some .offline)

/-- A descriptor is closed once, and before that at most one function waits to close it, whose socket is offline. -/
structure ClosedOnce (ape : Ape) (i : Nat) : Prop where
  once : closesOf ape i + closingOf ape i ≤ 1
  offline : closingOf ape i ≠ 0 → stateOf ape i = some .offline
  unborn : stateOf ape i = none → closesOf ape i = 0

section Steps

variable {ape next : Ape} {i j : Nat}

/-- Steps that leave the closing of a descriptor alone. -/
theorem once_rests (kept : ClosedOnce ape i) (closed : closesOf next i = closesOf ape i)
    (waits : closingOf next i = closingOf ape i)
    (state : stateOf ape i = some .offline → closingOf ape i ≠ 0 → stateOf next i = some .offline)
    (born : stateOf next i = none → stateOf ape i = none) : ClosedOnce next i where
  once := by rw [closed, waits]; exact kept.once
  offline waiting := by
    rw [waits] at waiting
    exact state (kept.offline waiting) waiting
  unborn absent := by rw [closed]; exact kept.unborn (born absent)

theorem stateOf_change (f : NetSocket → NetSocket) :
    stateOf (ape.change j f) i = if j = i then ape.sockets[i]?.map fun socket => (f socket).state else stateOf ape i := by
  rw [stateOf, Ape.change, List.getElem?_modify, stateOf]
  split
  · simp [Function.comp_def]
  · simp

theorem stateOf_ported {port localport : BitVec 16} : stateOf (portedApe ape j port localport) i = stateOf ape i := by
  rw [portedApe, stateOf_change]
  split <;> rfl

theorem stateOf_none_change (f : NetSocket → NetSocket) :
    stateOf (ape.change j f) i = none ↔ stateOf ape i = none := by
  rw [stateOf_change]
  split
  · simp [stateOf]
  · rfl

theorem closes_offline (reported : Bool) : (offlineEvents j reported).count (.close i) = 0 := by
  cases reported <;> simp [offlineEvents]

theorem closing_frames (now reported : Bool) :
    (closeFrames j now reported).countP (isClosing i) = if j = i then 1 else 0 := by
  cases reported <;> by_cases same : j = i <;> simp [closeFrames, isClosing, same]

theorem once_closing {socket : NetSocket} {now : Bool} (kept : ClosedOnce ape i) (here : ape.sockets[j]? = some socket)
    (open_ : socket.state ≠ .offline) (unclosed : closesOf ape j = 0) : ClosedOnce (closingApe ape j socket now) i := by
  have closed : closesOf (closingApe ape j socket now) i = closesOf ape i := by
    rw [closesOf, closingApe, List.count_append, closes_offline, Nat.add_zero, closesOf]
  have waits : closingOf (closingApe ape j socket now) i = closingOf ape i + if j = i then 1 else 0 := by
    rw [closingOf, closingApe, List.countP_append, closing_frames, Nat.add_comm, closingOf]
  have state : stateOf (closingApe ape j socket now) i = if j = i then some .offline else stateOf ape i := by
    have changed := @stateOf_change ape i j ({ · with state := .offline })
    by_cases same : j = i
    · subst same
      rw [if_pos rfl] at changed ⊢
      refine Eq.trans changed ?_
      rw [here]
      rfl
    · rw [if_neg same] at changed ⊢
      exact changed
  by_cases same : j = i
  · subst same
    have idle : closingOf ape j = 0 := by
      by_contra waiting
      have offline := kept.offline waiting
      rw [stateOf, here] at offline
      exact open_ (Option.some.inj offline)
    rw [if_pos rfl] at waits state
    refine { once := by omega, offline := fun _ => state, unborn := ?_ }
    intro absent
    cases state.symm.trans absent
  · rw [if_neg same] at waits state
    refine once_rests kept closed waits (fun offline _ => state.trans offline) fun absent => ?_
    rwa [← state]

theorem once_close {now : Bool} (kept : ClosedOnce ape i) (done : ape.apeSocketClose j now = .ok next)
    (unclosed : stateOf ape j ≠ some .offline → closesOf ape j = 0) : ClosedOnce next i := by
  obtain ⟨socket, here, -, ⟨-, rfl⟩ | ⟨open_, rfl⟩⟩ := close_cases done
  · exact kept
  · apply once_closing kept here open_
    apply unclosed
    rw [stateOf, here]
    exact fun offline => open_ (Option.some.inj offline)

/-- A change that keeps a socket offline if it is, or finds none of its functions waiting. -/
theorem once_change {f : NetSocket → NetSocket} (kept : ClosedOnce ape i)
    (state : ∀ socket, ape.sockets[j]? = some socket → socket.state = .offline → (f socket).state = .offline) :
    ClosedOnce (ape.change j f) i := by
  refine @once_rests ape _ i kept rfl rfl ?_ ?_
  · intro offline _
    rw [stateOf_change]
    split
    · rename_i same
      subst same
      rw [stateOf] at offline
      obtain ⟨socket, here, was⟩ := Option.map_eq_some_iff.mp offline
      rw [here, Option.map_some, state socket here was]
    · exact offline
  · exact (stateOf_none_change f).mp

theorem once_log {events : List ApeEvent} (kept : ClosedOnce ape i) (others : events.count (.close i) = 0) :
    ClosedOnce { ape with log := ape.log ++ events } i := by
  refine @once_rests ape _ i kept ?_ rfl (fun offline _ => offline) id
  rw [closesOf, List.count_append, others, Nat.add_zero, closesOf]

theorem once_frames {frames : List ApeFrame} (kept : ClosedOnce ape i)
    (waits : frames.countP (isClosing i) = ape.frames.countP (isClosing i)) : ClosedOnce { ape with frames } i :=
  @once_rests ape _ i kept rfl waits (fun offline _ => offline) id

theorem once_enter {frames : List ApeFrame} (kept : ClosedOnce ape i) (others : frames.countP (isClosing i) = 0) :
    ClosedOnce (ape.enter frames) i := by
  apply once_frames kept
  rw [List.countP_append, others, Nat.zero_add]

theorem once_register {fd : Int} {accepted : Bool} (kept : ClosedOnce ape i) : ClosedOnce (ape.register j fd accepted) i :=
  @once_log (ape.withEvents _) i _ { once := kept.once, offline := kept.offline, unborn := kept.unborn } (by simp)

theorem once_append {new : List NetSocket} (kept : ClosedOnce ape i) :
    ClosedOnce { ape with sockets := ape.sockets ++ new } i := by
  have born : ∀ {state}, stateOf ape i = some state → stateOf { ape with sockets := ape.sockets ++ new } i = some state := by
    intro state before
    rw [stateOf] at before ⊢
    obtain ⟨socket, here, was⟩ := Option.map_eq_some_iff.mp before
    rw [List.getElem?_append_left (List.getElem?_eq_some_iff.mp here).1, here, Option.map_some, was]
  refine @once_rests ape _ i kept rfl rfl (fun offline _ => born offline) ?_
  intro absent
  by_contra present
  obtain ⟨state, before⟩ := Option.ne_none_iff_exists'.mp present
  cases (born before).symm.trans absent

theorem once_ready {dialing : Option Dialing} (kept : ClosedOnce ape i) (done : ape.readyToConnect j dialing = .ok next)
    (unclosed : closesOf ape j = 0) (open_ : stateOf ape j ≠ some .offline) : ClosedOnce next i := by
  obtain ⟨socket, here, -, outcome⟩ := ready_cases done
  have begins : ClosedOnce (dialingApe ape j socket.state) i :=
    once_change (@once_log ape i [.dialed j socket.state] kept (by simp)) fun _ _ offline => offline
  have unclosed' : closesOf (dialingApe ape j socket.state) j = 0 := by
    rw [closesOf, dialingApe, List.count_append, ← closesOf, unclosed]
    simp
  rcases outcome with ⟨-, closed⟩ | ⟨-, rfl⟩ | ⟨dialing, -, -, rfl⟩
  · exact once_close begins closed fun _ => unclosed'
  · exact begins
  · have started : ClosedOnce (((dialingApe ape j socket.state).change j fun old => { old with
        type := .client
        state := if socket.proto = .udp then .online else .progress }).register j socket.fd dialing.accepted) i := by
      apply once_register
      apply once_change begins
      intro other there offline
      rw [dialingApe, List.getElem?_modify_eq, here] at there
      cases there
      rw [stateOf, here] at open_
      exact absurd (congrArg some offline) open_
    exact @either_ape (ClosedOnce · i) _ _ _ _
      { once := started.once, offline := started.offline, unborn := started.unborn } started

theorem once_shutdown {waits : Bool} (kept : ClosedOnce ape i) (done : ape.apeSocketShutdown j waits = .ok next)
    (unclosed : stateOf ape j ≠ some .offline → closesOf ape j = 0) : ClosedOnce next i := by
  obtain ⟨socket, here, -, rfl | ⟨-, closed⟩ | ⟨online, -, closed⟩ | ⟨online, -, rfl⟩⟩ := shutdown_cases done
  · exact kept
  · exact once_close kept closed unclosed
  · have open_ : stateOf ape j ≠ some .offline := by
      rw [stateOf, here, Option.map_some, online]
      decide
    refine once_close (once_change kept ?_) closed fun _ => unclosed open_
    intro other there offline
    cases here.symm.trans there
    cases online.symm.trans offline
  · have shut : ClosedOnce (ape.change j ({ · with state := .shutdown })) i := by
      apply once_change kept
      intro other there offline
      cases here.symm.trans there
      cases online.symm.trans offline
    exact { once := shut.once, offline := shut.offline, unborn := shut.unborn }

theorem once_popped {frame : ApeFrame} {rest : List ApeFrame} (kept : ClosedOnce ape i) (frames : ape.frames = frame :: rest)
    (other : isClosing i frame = false) : ClosedOnce (poppedApe ape rest) i := by
  apply once_frames kept
  rw [frames, List.countP_cons, other]
  rfl

theorem once_called {set : Bool} (kept : ClosedOnce ape i) : ClosedOnce (calledApe ape j set) i :=
  @either_ape (ClosedOnce · i) _ _ _ _ (once_enter (@once_log _ i [.onConnected j] kept (by simp)) rfl) kept

/-- The rest of `ape_socket_close`. -/
theorem once_closed {now : Bool} {rest : List ApeFrame} (fd : Int) (kept : ClosedOnce ape i)
    (frames : ape.frames = .close j now :: rest) :
    ClosedOnce (((poppedApe ape rest).emit [.close j]).withEvents (ape.events.close fd).eventsDel) i := by
  by_cases same : j = i
  · subst same
    have waits : closingOf ape j = rest.countP (isClosing j) + 1 := by
      rw [closingOf, frames, List.countP_cons]
      simp [isClosing]
    have bound := kept.once
    have shut := kept.offline (by omega)
    have closed : (ape.log ++ [ApeEvent.close j]).count (.close j) = closesOf ape j + 1 := by
      rw [List.count_append, closesOf]
      simp
    refine { once := ?_, offline := fun _ => shut, unborn := fun absent => ?_ }
    · show (ape.log ++ [ApeEvent.close j]).count (.close j) + rest.countP (isClosing j) ≤ 1
      omega
    · cases shut.symm.trans absent
  · have others := @once_log _ i [.close j] (once_popped kept frames (by simp [isClosing, same])) (by simp [same])
    exact { once := others.once, offline := others.offline, unborn := others.unborn }

theorem once_accepted {server new : NetSocket} {fd : Int} {accepted : Bool} {results : List AcceptResult}
    (kept : ClosedOnce ape i) : ClosedOnce (acceptedApe ape j server new fd accepted results) i := by
  have client := @once_register _ i ape.sockets.length new.fd accepted
    (@once_log _ i [.accepted j fd ape.sockets.length] (@once_append _ i
      [{ new with callbacks := server.callbacks, parent := some j, state := .online, type := .client }] kept) (by simp))
  apply @either_ape (ClosedOnce · i)
  · exact once_enter (@once_log _ i [.onConnect j ape.sockets.length] client (by simp)) rfl
  · exact once_enter client rfl

/-- A call that opens finds the descriptor open. -/
theorem opens_finds {call : ApeCall} (finds : findsOpen ape call = true) (touched : touchedSocket ape call = some i)
    (opened : opens call = true) : closesOf ape i = 0 ∧ stateOf ape i ≠ some .offline := by
  rw [findsOpen, touched, Option.all_some, opened] at finds
  simpa using finds

theorem closes_finds {call : ApeCall} (finds : findsOpen ape call = true) (touched : touchedSocket ape call = some i)
    (open_ : stateOf ape i ≠ some .offline) : closesOf ape i = 0 := by
  rw [findsOpen, touched, Option.all_some, Bool.or_eq_true, Bool.and_eq_true, Bool.and_eq_true, decide_eq_true_iff,
    decide_eq_true_iff, decide_eq_true_iff] at finds
  rcases finds with fresh | offline
  · exact fresh.1
  · exact absurd offline.2 open_

theorem once_step {call : ApeCall} (all : ∀ i, ClosedOnce ape i) (finds : findsOpen ape call = true)
    (done : ape.step call = .ok next) : ∀ i, ClosedOnce next i := by
  intro i
  have kept := all i
  have ported : ∀ {j port localport}, ClosedOnce (portedApe ape j port localport) i := once_change kept fun _ _ => id
  cases ape_step_cases done with
  | new => exact once_append kept
  | setCallbacks here => exact once_change kept fun _ _ => id
  | listenNowhere here unasked => exact kept
  | @listenFails j port bound listening accepted socket here asked fails =>
    obtain ⟨unclosed, open_⟩ := opens_finds finds rfl rfl
    have idle : closingOf ape j = 0 := by
      by_contra waiting
      exact open_ ((all j).offline waiting)
    by_cases same : j = i
    · subst same
      refine { once := ?_, offline := kept.offline, unborn := ?_ }
      · show (ape.log ++ [ApeEvent.close j]).count (.close j) + closingOf ape j ≤ 1
        rw [List.count_append, ← closesOf, unclosed, idle]
        simp
      · intro absent
        have born : stateOf ape j = none := absent
        rw [stateOf, here] at born
        cases born
    · have others := @once_log _ i [.close j] kept (by simp [same])
      exact { once := others.once, offline := others.offline, unborn := others.unborn }
  | @listens j port bound listening accepted socket here asked succeeds =>
    obtain ⟨-, open_⟩ := opens_finds finds rfl rfl
    apply once_register
    apply @once_log _ i [.listening j] ?_ (by simp)
    apply once_change kept
    intro other there offline
    rw [stateOf, there, Option.map_some, offline] at open_
    exact absurd rfl open_
  | connectNowhere unasked closed => exact once_close kept closed fun _ => (opens_finds finds rfl rfl).1
  | @connectUnix j port localport numeric dialing next socket here asked unix dialed =>
    obtain ⟨unclosed, open_⟩ := opens_finds finds rfl rfl
    exact once_ready ported dialed unclosed (stateOf_ported.trans_ne open_)
  | @connectAddress j port localport numeric dialing next socket here asked address dialed =>
    obtain ⟨unclosed, open_⟩ := opens_finds finds rfl rfl
    have entered : ClosedOnce ((portedApe ape j port localport).enter [.connect j]) i := once_enter ported rfl
    exact once_ready entered dialed unclosed (stateOf_ported.trans_ne open_)
  | @connectName j port localport numeric dialing socket here asked stream name =>
    have asking := @once_enter (portedApe ape j port localport) i [.ask ape.queries.length j] ported rfl
    exact { once := asking.once, offline := asking.offline, unborn := asking.unborn }
  | shutdown shut => exact once_shutdown kept shut (closes_finds finds rfl)
  | shutdownNow shut => exact once_shutdown kept shut (closes_finds finds rfl)
  | @abandoned q dialing params query undone invalid =>
    have freed := @once_log ape i [.paramsFree q] kept (by simp)
    exact { once := freed.once, offline := freed.offline, unborn := freed.unborn }
  | @resolved q dialing params next query undone valid dialed =>
    have touched : touchedSocket ape (.resolved q dialing) = some params.arg := by
      simp [touchedSocket, query, Option.filter, valid]
    obtain ⟨unclosed, open_⟩ := opens_finds finds touched rfl
    have finished : ClosedOnce (finishedApe ape q) i :=
      { once := kept.once, offline := kept.offline, unborn := kept.unborn }
    have called := @once_enter _ i [.answer q] (@once_log _ i [.called q] finished (by simp)) rfl
    refine once_ready called dialed ?_ open_
    show (ape.log ++ [ApeEvent.called q]).count (.close params.arg) = 0
    rw [List.count_append, ← closesOf, unclosed]
    simp
  | ares stepped => exact { once := kept.once, offline := kept.offline, unborn := kept.unborn }
  | @established j socket idle here progress =>
    apply once_called
    apply @once_log _ i [.established j] ?_ (by simp)
    apply once_change kept
    intro other there offline
    cases here.symm.trans there
    cases progress.symm.trans offline
  | unestablished idle closed => exact once_close kept closed (closes_finds finds rfl)
  | ended idle closed => exact once_close kept closed (closes_finds finds rfl)
  | acceptable idle => exact once_enter kept rfl
  | @socketFree k j socket idle due here =>
    have later : ClosedOnce (dueApe ape k) i := { once := kept.once, offline := kept.offline, unborn := kept.unborn }
    exact once_change later fun _ _ => id
  | @socketDestroy k j next idle due closed =>
    have later : ClosedOnce (dueApe ape k) i := { once := kept.once, offline := kept.offline, unborn := kept.unborn }
    have touched : touchedSocket ape (.timer k) = some j := by simp [touchedSocket, due]
    have unclosed := closes_finds finds touched
    exact once_close later closed unclosed
  | socketConnected idle due here =>
    exact once_called { once := kept.once, offline := kept.offline, unborn := kept.unborn }
  | @paramsFree k q idle due =>
    have freed := @once_log ape i [.paramsFree q] kept (by simp)
    exact { once := freed.once, offline := freed.offline, unborn := freed.unborn }
  | returned frames => exact once_popped kept frames rfl
  | @closes j now rest socket frames here =>
    have closed := once_closed socket.fd kept frames
    apply @either_ape (ClosedOnce · i)
    · exact once_change closed fun _ _ => id
    · exact { once := closed.once, offline := closed.offline, unborn := closed.unborn }
  | answered frames =>
    have popped := once_popped kept frames rfl
    exact { once := popped.once, offline := popped.offline, unborn := popped.unborn }
  | asked frames record => exact once_change (once_popped kept frames rfl) fun _ _ => id
  | connected frames => exact once_change (once_popped kept frames rfl) fun _ _ => id
  | drained frames => exact once_log (once_popped kept frames rfl) (by simp)
  | interrupted frames => exact once_enter (once_popped kept frames rfl) rfl
  | aborted frames => exact once_popped kept frames rfl
  | accepted frames here opens => exact once_accepted (once_popped kept frames rfl)

end Steps

theorem once_starts (i : Nat) : ClosedOnce {} i where
  once := Nat.zero_le 1
  offline waiting := absurd rfl waiting
  unborn _ := rfl

/-- No descriptor is closed twice in a run whose calls find it open. -/
theorem descriptor_closed_once (calls : List ApeCall)
    (each : EachStep Ape.step {} calls fun ape call => findsOpen ape call = true) :
    Throughout Ape.step {} calls fun ape => ∀ i, closesOf ape i ≤ 1 := by
  intro before after ape split reached i
  have kept := throughout_of_each once_starts (fun _ _ _ kept finds done => once_step kept finds done) each before after ape
    split reached
  exact Nat.le_of_add_right_le (kept i).once

/-- Where `bind` fails, `APE_socket_listen` closes the descriptor, and the shutdown closes it again. -/
def failedListen : List ApeCall :=
  [.new .tcp 0 (some 5) true, .listen 0 80#16 false false true, .shutdownNow 0, .resume]

theorem closed_twice : ∃ ape, runAll Ape.step {} failedListen = .ok ape ∧ closesOf ape 0 = 2 := ⟨_, rfl, rfl⟩

theorem listening_closed_once :
    Throughout Ape.step {} [.new .tcp 0 (some 5) true, .listen 0 80#16 true true true, .shutdownNow 0, .resume,
      .shutdown 0 false, .timer 0] fun ape => ∀ i, closesOf ape i ≤ 1 :=
  descriptor_closed_once _ (each_of_check rfl)

end ZapeProof
