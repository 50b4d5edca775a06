import Zape.Ape.Descriptors
import Zape.Ape.Registered

/-! How `APE_socket_connect` ends: under way and registered, or closed. -/
namespace ZapeProof

open Machine ZapeModel

/-- A `bind` of the local port fails: in the first try, or after others for which `connect` reports `EADDRNOTAVAIL`. -/
def bindFails (dialing : Dialing) (localPort : BitVec 16) : Bool :=
  localPort ≠ 0#16 && (List.range 10).any fun ntry =>
    !dialing.bound ntry && (List.range ntry).all fun earlier => dialing.bound earlier && dialing.reply earlier = .unavailable

/-- What `bind` and `connect` answer where `ape_socket_connect_ready_to_connect` is called with an address, and the local
    port. -/
def dialledWith (ape : Ape) : ApeCall → Option (Dialing × BitVec 16)
  | .connect i port localport numeric dialing =>
    if port ≠ 0#16 ∧ (numeric = true ∨ (ape.sockets[i]?.any (·.proto = .unix)) = true) then some (dialing, localport)
    else none
  | .resolved q dialing =>
    match (ape.queries[q]?.filter fun params => !params.invalidate).bind fun params => ape.sockets[params.arg]? with
    | none => none
    | some socket => dialing.map ((·, socket.localPort))
  | _ => none

/-- No `bind` of a local port fails, and the poller takes the socket; what listens is not about to be connected. -/
def dialsWell (ape : Ape) (call : ApeCall) : Bool :=
  findsOpen ape call &&
    ((dialledWith ape call).all fun dialed => !bindFails dialed.1 dialed.2 && registersWell ape call) &&
    match call with
    | .listen i _ _ _ _ => stateOf ape i ≠ some .progress
    | _ => true

/-- `ape_socket_connect_ready_to_connect` was called for the socket. -/
def wasDialed (ape : Ape) (i : Nat) : Prop := ∃ state, .dialed i state ∈ ape.log

/-- `ape_socket_close` took effect, and called `on_disconnect` if it was set. -/
def Reported (ape : Ape) (i : Nat) : Prop :=
  ∃ set, .offline i set ∈ ape.log ∧ (set = true → .onDisconnect i ∈ ape.log)

/-- The socket is under way and registered, or it is closed, at the latest when no function waits any more, and will be freed;
    or it went on from there. -/
def DialEnds (ape : Ape) (i : Nat) (socket : NetSocket) : Prop :=
  (socket.state = .progress ∧ .registered i true ∈ ape.log ∧ closesOf ape i = 0) ∨
  (socket.state = .offline ∧ Reported ape i ∧
    (ape.frames = [] → closesOf ape i ≠ 0 ∧ (.socketFree i ∈ ape.timers ∨ socket.freed = true))) ∨
  ((socket.state = .online ∨ socket.state = .shutdown) ∧ (.established i ∈ ape.log ∨ .listening i ∈ ape.log))

structure DialledSocket (ape : Ape) (i : Nat) (socket : NetSocket) : Prop where
  pending : wasDialed ape i → socket.state ≠ .pending
  progress : socket.state = .progress → .registered i true ∈ ape.log ∧ closesOf ape i = 0
  offline : socket.state = .offline → Reported ape i ∧
    (closingOf ape i ≠ 0 ∨ closesOf ape i ≠ 0 ∧ (.socketFree i ∈ ape.timers ∨ socket.freed = true))
  onward : wasDialed ape i → socket.state = .online ∨ socket.state = .shutdown →
    .established i ∈ ape.log ∨ .listening i ∈ ape.log

structure DialFine (ape : Ape) (i : Nat) : Prop where
  unborn : ape.sockets[i]? = none → ¬ wasDialed ape i
  fine : ∀ socket, ape.sockets[i]? = some socket → socket.proto = .tcp → DialledSocket ape i socket

theorem retry_unbound {dialing : Dialing} {localPort : BitVec 16} (left : Nat) :
    ∀ ntry, dialing.retry localPort left ntry = .unbound ↔
      localPort ≠ 0#16 ∧ ∃ k < left, dialing.bound (ntry + k) = false ∧
        ∀ e < k, dialing.bound (ntry + e) = true ∧ dialing.reply (ntry + e) = .unavailable := by
  induction left with
  | zero => simp [Dialing.retry]
  | succ left ih =>
    intro ntry
    rw [Dialing.retry]
    by_cases fails : localPort ≠ 0#16 ∧ dialing.bound ntry = false
    · rw [if_pos fails]
      exact iff_of_true rfl ⟨fails.1, 0, Nat.succ_pos left, fails.2, by simp⟩
    · rw [if_neg fails]
      cases replied : dialing.reply ntry with
      | unavailable =>
        rw [ih (ntry + 1)]
        constructor
        · rintro ⟨port, k, below, unbound, before⟩
          refine ⟨port, k + 1, Nat.succ_lt_succ below, by rwa [← Nat.add_assoc, Nat.add_right_comm], ?_⟩
          intro e earlier
          cases e with
          | zero => exact ⟨by simpa [port] using fails, replied⟩
          | succ e =>
            have shifted : ntry + (e + 1) = ntry + 1 + e := by omega
            rw [shifted]
            exact before e (Nat.lt_of_succ_lt_succ earlier)
        · rintro ⟨port, k, below, unbound, before⟩
          cases k with
          | zero => exact absurd ⟨port, unbound⟩ fails
          | succ k =>
            have shifted : ∀ e, ntry + 1 + e = ntry + (e + 1) := fun e => by omega
            refine ⟨port, k, Nat.lt_of_succ_lt_succ below, by rwa [shifted], fun e earlier => ?_⟩
            rw [shifted]
            exact before (e + 1) (Nat.succ_lt_succ earlier)
      | _ =>
        refine iff_of_false (fun outcome => by cases outcome) ?_
        rintro ⟨port, k, below, unbound, before⟩
        cases k with
        | zero => exact fails ⟨port, unbound⟩
        | succ k =>
          have retried := (before 0 (Nat.succ_pos k)).2
          cases replied.symm.trans retried

theorem dial_unbound {dialing : Dialing} {localPort : BitVec 16} :
    dialing.dial localPort = .unbound ↔ bindFails dialing localPort = true := by
  rw [Dialing.dial, retry_unbound]
  simp [bindFails]

section Parts

variable {ape next : Ape} {i j : Nat}

theorem dial_ends {socket : NetSocket} (kept : DialledSocket ape i socket) (dialed : wasDialed ape i) :
    DialEnds ape i socket := by
  cases state : socket.state with
  | online => exact .inr (.inr ⟨.inl state, kept.onward dialed (.inl state)⟩)
  | progress => exact .inl ⟨state, kept.progress state⟩
  | pending => exact absurd state (kept.pending dialed)
  | offline =>
    obtain ⟨reported, closed⟩ := kept.offline state
    refine .inr (.inl ⟨state, reported, fun idle => closed.resolve_left ?_⟩)
    rw [closingOf, idle]
    exact fun waiting => waiting rfl
  | shutdown => exact .inr (.inr ⟨.inr state, kept.onward dialed (.inr state)⟩)

/-- Steps that leave the socket in its state. -/
theorem dialled_rests {socket changed : NetSocket} {events : List ApeEvent} (kept : DialledSocket ape i socket)
    (state : changed.state = socket.state) (log : next.log = ape.log ++ events) (undialed : ∀ state, .dialed i state ∉ events)
    (closed : closesOf next i = closesOf ape i) (waits : closingOf next i = closingOf ape i)
    (freeing : .socketFree i ∈ ape.timers ∨ socket.freed = true → .socketFree i ∈ next.timers ∨ changed.freed = true) :
    DialledSocket next i changed := by
  have back : wasDialed next i → wasDialed ape i := by
    rintro ⟨state', member⟩
    rw [log, List.mem_append] at member
    exact ⟨state', member.resolve_right (undialed state')⟩
  have grown : ∀ event, event ∈ ape.log → event ∈ next.log := by
    intro event member
    rw [log]
    exact List.mem_append_left _ member
  refine { pending := ?_, progress := ?_, offline := ?_, onward := ?_ }
  · rw [state]
    exact fun dialed => kept.pending (back dialed)
  · rw [state, closed]
    exact fun progress => (kept.progress progress).imp_left (grown _)
  · rw [state, closed, waits]
    intro offline
    obtain ⟨⟨set, reported, told⟩, shut⟩ := kept.offline offline
    exact ⟨⟨set, grown _ reported, fun isSet => grown _ (told isSet)⟩, shut.imp_right fun both => ⟨both.1, freeing both.2⟩⟩
  · rw [state]
    exact fun dialed online => (kept.onward (back dialed) online).imp (grown _) (grown _)

theorem fine_rests {events : List ApeEvent} (kept : DialFine ape i)
    (sockets : ∀ changed, next.sockets[i]? = some changed → ∃ socket, ape.sockets[i]? = some socket ∧
      changed.proto = socket.proto ∧ changed.state = socket.state ∧ (socket.freed = true → changed.freed = true))
    (unborn : next.sockets[i]? = none → ape.sockets[i]? = none)
    (log : next.log = ape.log ++ events) (undialed : ∀ state, .dialed i state ∉ events)
    (closed : events.count (.close i) = 0) (waits : closingOf next i = closingOf ape i)
    (freeing : .socketFree i ∈ ape.timers → .socketFree i ∈ next.timers) : DialFine next i := by
  have closed' : closesOf next i = closesOf ape i := by
    rw [closesOf, log, List.count_append, closed, Nat.add_zero, closesOf]
  constructor
  · rintro absent ⟨state, member⟩
    rw [log, List.mem_append] at member
    exact kept.unborn (unborn absent) ⟨state, member.resolve_right (undialed state)⟩
  · intro changed there tcp
    obtain ⟨socket, here, proto, state, freed⟩ := sockets changed there
    exact dialled_rests (kept.fine socket here (proto ▸ tcp)) state log undialed closed' waits
      fun held => held.imp freeing freed

theorem fine_here {changed : NetSocket} (there : next.sockets[i]? = some changed) (dialled : DialledSocket next i changed) :
    DialFine next i where
  unborn absent := by cases there.symm.trans absent
  fine socket here _ := by
    cases there.symm.trans here
    exact dialled

theorem fine_sockets (kept : DialFine ape i) (sockets : next.sockets = ape.sockets) (log : next.log = ape.log)
    (waits : closingOf next i = closingOf ape i) (freeing : .socketFree i ∈ ape.timers → .socketFree i ∈ next.timers) :
    DialFine next i := by
  apply @fine_rests ape next i [] kept
  · intro changed there
    rw [sockets] at there
    exact ⟨changed, there, rfl, rfl, id⟩
  · rw [sockets]
    exact id
  · rw [log, List.append_nil]
  · exact fun _ => List.not_mem_nil
  · rfl
  · exact waits
  · exact freeing

theorem fine_change {f : NetSocket → NetSocket} (kept : DialFine ape i)
    (rests : j = i → ∀ socket, (f socket).proto = socket.proto ∧ (f socket).state = socket.state ∧
      (socket.freed = true → (f socket).freed = true)) : DialFine (ape.change j f) i := by
  apply @fine_rests ape _ i [] kept
  · intro changed there
    rw [Ape.change, List.getElem?_modify] at there
    obtain ⟨socket, here, rfl⟩ := Option.map_eq_some_iff.mp there
    refine ⟨socket, here, ?_⟩
    split
    · rename_i same
      exact rests same socket
    · exact ⟨rfl, rfl, id⟩
  · intro absent
    rw [Ape.change, List.getElem?_modify] at absent
    exact Option.map_eq_none_iff.mp absent
  · exact (List.append_nil _).symm
  · exact fun _ => List.not_mem_nil
  · rfl
  · rfl
  · exact id

theorem fine_log {events : List ApeEvent} (kept : DialFine ape i) (undialed : ∀ state, .dialed i state ∉ events)
    (closed : events.count (.close i) = 0) : DialFine { ape with log := ape.log ++ events } i :=
  @fine_rests ape _ i events kept (fun changed there => ⟨changed, there, rfl, rfl, id⟩) id rfl undialed closed rfl id

theorem fine_frames {frames : List ApeFrame} (kept : DialFine ape i)
    (waits : frames.countP (isClosing i) = ape.frames.countP (isClosing i)) : DialFine { ape with frames } i :=
  @fine_sockets ape _ i kept rfl rfl waits id

theorem fine_enter {frames : List ApeFrame} (kept : DialFine ape i) (others : frames.countP (isClosing i) = 0) :
    DialFine (ape.enter frames) i := by
  apply fine_frames kept
  rw [List.countP_append, others, Nat.zero_add]

theorem fine_dispatch {async : ApeAsync} (kept : DialFine ape i) : DialFine (ape.dispatch async) i :=
  @fine_sockets ape _ i kept rfl rfl rfl (List.mem_cons_of_mem _)

theorem fine_register {fd : Int} {accepted : Bool} (kept : DialFine ape i) : DialFine (ape.register j fd accepted) i :=
  @fine_log (ape.withEvents _) i _ (@fine_sockets ape _ i kept rfl rfl rfl id) (by simp) (by simp)

/-- A socket that is new was not dialed. -/
theorem fine_append {new : List NetSocket} (kept : DialFine ape i) (online : ∀ socket ∈ new, socket.state = .pending ∨
    socket.state = .online) : DialFine { ape with sockets := ape.sockets ++ new } i := by
  by_cases old : i < ape.sockets.length
  · apply @fine_rests ape _ i [] kept
    · intro changed there
      rw [List.getElem?_append_left old] at there
      exact ⟨changed, there, rfl, rfl, id⟩
    · intro absent
      rwa [List.getElem?_append_left old] at absent
    · exact (List.append_nil _).symm
    · exact fun _ => List.not_mem_nil
    · rfl
    · rfl
    · exact id
  · have unborn : ape.sockets[i]? = none := List.getElem?_eq_none (by omega)
    have undialed := kept.unborn unborn
    refine { unborn := fun _ => undialed, fine := fun socket there _ => ?_ }
    rw [List.getElem?_append_right (by omega)] at there
    have fresh := online socket (List.mem_of_getElem? there)
    refine { pending := fun dialed => absurd dialed undialed, progress := ?_, offline := ?_,
             onward := fun dialed => absurd dialed undialed }
    · intro progress
      rw [progress] at fresh
      simp at fresh
    · intro offline
      rw [offline] at fresh
      simp at fresh

theorem dialled_closing {socket changed : NetSocket} {now : Bool} (offline : changed.state = .offline) :
    DialledSocket (closingApe ape i socket now) i changed := by
  refine { pending := ?_, progress := ?_, offline := fun _ => ⟨?_, .inl ?_⟩, onward := ?_ }
  · rw [offline]
    exact fun _ pending => by cases pending
  · rw [offline]
    exact fun progress => by cases progress
  · refine ⟨socket.callbacks.onDisconnect.isSome, List.mem_append_right _ ?_, fun set => List.mem_append_right _ ?_⟩
    · cases socket.callbacks.onDisconnect.isSome <;> simp [offlineEvents]
    · simp [offlineEvents, set]
  · rw [closingOf, closingApe, List.countP_append, closing_frames, if_pos rfl]
    omega
  · rw [offline]
    rintro _ (online | shut)
    · cases online
    · cases shut

theorem fine_closing {socket : NetSocket} {now : Bool} (kept : DialFine ape i) (here : ape.sockets[j]? = some socket) :
    DialFine (closingApe ape j socket now) i := by
  by_cases same : j = i
  · subst same
    have there : (closingApe ape j socket now).sockets[j]? = some { socket with state := .offline } := by
      rw [closingApe, List.getElem?_modify_eq, here]
      rfl
    exact fine_here there (dialled_closing rfl)
  · have untouched : (closingApe ape j socket now).sockets[i]? = ape.sockets[i]? := List.getElem?_modify_ne _ _ same
    apply @fine_rests ape _ i (offlineEvents j socket.callbacks.onDisconnect.isSome) kept
    · exact fun changed there => ⟨changed, untouched.symm.trans there, rfl, rfl, id⟩
    · exact untouched.symm.trans
    · rfl
    · intro state
      cases socket.callbacks.onDisconnect.isSome <;> simp [offlineEvents]
    · exact closes_offline _
    · rw [closingOf, closingApe, List.countP_append, closing_frames, if_neg same, Nat.zero_add, closingOf]
    · exact id

theorem fine_close {now : Bool} (kept : DialFine ape i) (done : ape.apeSocketClose j now = .ok next) : DialFine next i := by
  obtain ⟨socket, here, -, ⟨-, rfl⟩ | ⟨-, rfl⟩⟩ := close_cases done
  · exact kept
  · exact fine_closing kept here

/-- Where the descriptor is not watched yet and the poller takes it, `connect` is under way in the end. -/
theorem fine_started {socket : NetSocket} {accepted : Bool} (kept : DialFine ape i) (here : ape.sockets[j]? = some socket)
    (unclosed : closesOf ape j = 0) (added : accepted = true ∧ socket.fd ∉ watchedFds ape.events) :
    DialFine (startedApe (dialingApe ape j socket.state) j socket accepted) i := by
  let begun := ((dialingApe ape j socket.state).change j fun old => { old with
    type := .client
    state := if socket.proto = .udp then .online else .progress }).register j socket.fd accepted
  have log : begun.log = ape.log ++ [.dialed j socket.state, .registered j true] := by
    have result := @add_result ape.events socket.fd (.socket j) (eventRead ||| eventWrite) accepted
    rw [if_neg (by simp [added])] at result
    have joined := List.append_assoc ape.log [.dialed j socket.state] [.registered j true]
    refine Eq.trans ?_ joined
    show ape.log ++ [.dialed j socket.state] ++ [.registered j (decide ((ape.events.eventsAdd socket.fd (.socket j)
      (eventRead ||| eventWrite) accepted).2 = 1))] = _
    rw [result]
    rfl
  have begun_fine : DialFine begun i := by
    by_cases same : j = i
    · subst same
      have there : begun.sockets[j]? = some { socket with
          dnsState := none
          type := .client
          state := if socket.proto = .udp then .online else .progress } := by
        show ((ape.sockets.modify j _).modify j _)[j]? = _
        rw [List.getElem?_modify_eq, List.getElem?_modify_eq, here]
        rfl
      refine { unborn := fun absent => (by cases there.symm.trans absent), fine := fun socket' here' tcp => ?_ }
      cases there.symm.trans here'
      have stream : socket.proto = .tcp := tcp
      have closed : closesOf begun j = 0 := by
        rw [closesOf, log, List.count_append, ← closesOf, unclosed]
        simp
      refine { pending := ?_, progress := fun _ => ⟨?_, closed⟩, offline := ?_, onward := ?_ }
      · simp [stream]
      · rw [log]
        simp
      · simp [stream]
      · simp [stream]
    · have untouched : begun.sockets[i]? = ape.sockets[i]? :=
        (List.getElem?_modify_ne _ _ same).trans (List.getElem?_modify_ne _ _ same)
      apply @fine_rests ape begun i [.dialed j socket.state, .registered j true] kept
      · exact fun changed there => ⟨changed, untouched.symm.trans there, rfl, rfl, id⟩
      · exact untouched.symm.trans
      · exact log
      · simp [Ne.symm same]
      · simp
      · rfl
      · exact id
  exact @either_ape (DialFine · i) _ _ _ _ (fine_dispatch begun_fine) begun_fine

/-- `ape_shutdown` keeps a socket from being used any more. -/
theorem fine_shut {socket : NetSocket} (kept : DialFine ape i) (here : ape.sockets[j]? = some socket)
    (online : socket.state = .online) : DialFine (ape.change j ({ · with state := .shutdown })) i := by
  by_cases same : j = i
  · subst same
    refine { unborn := ?_, fine := ?_ }
    · intro absent
      rw [Ape.change, List.getElem?_modify_eq, here] at absent
      cases absent
    · intro changed there tcp
      rw [Ape.change, List.getElem?_modify_eq, here] at there
      cases there
      have was := kept.fine socket here tcp
      refine { pending := ?_, progress := ?_, offline := ?_, onward := fun dialed _ => was.onward dialed (.inl online) }
      · exact fun _ pending => SocketState.noConfusion pending
      · exact SocketState.noConfusion
      · exact SocketState.noConfusion
  · exact fine_change kept fun equal => absurd equal same

theorem fine_ready {dialing : Option Dialing} (kept : DialFine ape i) (done : ape.readyToConnect j dialing = .ok next)
    (unclosed : closesOf ape j = 0) (open_ : stateOf ape j ≠ some .offline)
    (well : ∀ socket started, ape.sockets[j]? = some socket → dialing = some started →
      started.dial socket.localPort ≠ .unbound ∧
        (started.dial socket.localPort = .started → started.accepted = true ∧ socket.fd ∉ watchedFds ape.events)) :
    DialFine next i := by
  obtain ⟨socket, here, -, outcome⟩ := ready_cases done
  rcases outcome with ⟨-, closed⟩ | ⟨⟨started, rfl, unbound⟩, rfl⟩ | ⟨started, rfl, dialed, rfl⟩
  · -- the socket is dialed, and closed before any other function sees that
    have there : (dialingApe ape j socket.state).sockets[j]? = some { socket with dnsState := none } := by
      rw [dialingApe, List.getElem?_modify_eq, here]
      rfl
    obtain ⟨socket', here', -, ⟨offline, -⟩ | ⟨-, rfl⟩⟩ := close_cases closed
    · cases there.symm.trans here'
      rw [stateOf, here] at open_
      exact absurd (congrArg some offline) open_
    · by_cases same : j = i
      · subst same
        have shut : (closingApe (dialingApe ape j socket.state) j socket' false).sockets[j]? =
            some { socket' with state := .offline } := by
          rw [closingApe, List.getElem?_modify_eq, here']
          rfl
        exact fine_here shut (dialled_closing rfl)
      · apply fine_closing _ here'
        have called := @fine_log ape i [.dialed j socket.state] kept (by simp [Ne.symm same]) (by simp)
        exact fine_change called fun equal => absurd equal same
  · exact absurd unbound (well socket started here rfl).1
  · exact fine_started kept here unclosed ((well socket started here rfl).2 dialed)

theorem fine_shutdown {waits : Bool} (kept : DialFine ape i) (done : ape.apeSocketShutdown j waits = .ok next) :
    DialFine next i := by
  obtain ⟨socket, here, -, rfl | ⟨-, closed⟩ | ⟨online, -, closed⟩ | ⟨online, -, rfl⟩⟩ := shutdown_cases done
  · exact kept
  · exact fine_close kept closed
  · exact fine_close (fine_shut kept here online) closed
  · exact fine_dispatch (fine_shut kept here online)

theorem fine_popped {frame : ApeFrame} {rest : List ApeFrame} (kept : DialFine ape i) (frames : ape.frames = frame :: rest)
    (other : isClosing i frame = false) : DialFine (poppedApe ape rest) i := by
  apply fine_frames kept
  rw [frames, List.countP_cons, other]
  rfl

theorem fine_called {set : Bool} (kept : DialFine ape i) : DialFine (calledApe ape j set) i :=
  @either_ape (DialFine · i) _ _ _ _ (fine_enter (@fine_log _ i [.onConnected j] kept (by simp) (by simp)) rfl) kept

/-- The descriptor of a socket is closed that is offline, and the socket is freed or will be. -/
theorem fine_shut_down {socket changed : NetSocket} (kept : DialFine ape j) (here : ape.sockets[j]? = some socket)
    (shut : socket.state = .offline) (log : next.log = ape.log ++ [.close j]) (there : next.sockets[j]? = some changed)
    (same : changed.proto = socket.proto ∧ changed.state = socket.state)
    (freeing : .socketFree j ∈ next.timers ∨ changed.freed = true) : DialFine next j := by
  refine { unborn := fun absent => (by cases there.symm.trans absent), fine := fun socket' here' tcp => ?_ }
  cases there.symm.trans here'
  have offline : changed.state = .offline := same.2.trans shut
  obtain ⟨⟨set, reported, told⟩, -⟩ := (kept.fine socket here (same.1 ▸ tcp)).offline shut
  have grown : ∀ event, event ∈ ape.log → event ∈ next.log := by
    intro event member
    rw [log]
    exact List.mem_append_left _ member
  have closed : closesOf next j ≠ 0 := by
    rw [closesOf, log, List.count_append]
    simp
  refine { pending := ?_, progress := ?_, offline := ?_, onward := ?_ }
  · rw [offline]
    exact fun _ pending => SocketState.noConfusion pending
  · rw [offline]
    exact SocketState.noConfusion
  · exact fun _ => ⟨⟨set, grown _ reported, fun isSet => grown _ (told isSet)⟩, .inr ⟨closed, freeing⟩⟩
  · rw [offline]
    rintro _ (online | shutdown)
    · exact SocketState.noConfusion online
    · exact SocketState.noConfusion shutdown

/-- The rest of `ape_socket_close`, which frees the socket `now` or by a timer. -/
theorem fine_closed {now : Bool} {rest : List ApeFrame} {socket : NetSocket} (once : ClosedOnce ape i) (kept : DialFine ape i)
    (frames : ape.frames = .close j now :: rest) (here : ape.sockets[j]? = some socket) :
    let closed := ((poppedApe ape rest).emit [.close j]).withEvents (ape.events.close socket.fd).eventsDel
    DialFine (if now then closed.change j ({ · with freed := true }) else closed.dispatch (.socketFree j)) i := by
  intro closed
  by_cases same : j = i
  · subst same
    have waits : closingOf ape j ≠ 0 := by
      rw [closingOf, frames, List.countP_cons]
      simp [isClosing]
    have shut : socket.state = .offline := by
      have offline := once.offline waits
      rw [stateOf, here] at offline
      exact Option.some.inj offline
    have there : (closed.change j ({ · with freed := true })).sockets[j]? = some { socket with freed := true } := by
      rw [Ape.change, List.getElem?_modify_eq]
      exact congrArg (Option.map _) here
    apply @either_ape (DialFine · j)
    · exact fine_shut_down kept here shut rfl there ⟨rfl, rfl⟩ (.inr rfl)
    · exact fine_shut_down kept here shut rfl here ⟨rfl, rfl⟩ (.inl List.mem_cons_self)
  · have others := @fine_log _ i [.close j] (fine_popped kept frames (by simp [isClosing, same])) (by simp) (by simp [same])
    have unwatched : DialFine closed i := @fine_sockets _ _ i others rfl rfl rfl id
    apply @either_ape (DialFine · i)
    · exact fine_change unwatched fun equal => absurd equal same
    · exact fine_dispatch unwatched

theorem fine_accepted {server new : NetSocket} {fd : Int} {accepted : Bool} {results : List AcceptResult}
    (kept : DialFine ape i) : DialFine (acceptedApe ape j server new fd accepted results) i := by
  have client := @fine_register _ i ape.sockets.length new.fd accepted
    (@fine_log _ i [.accepted j fd ape.sockets.length] (@fine_append _ i
      [{ new with callbacks := server.callbacks, parent := some j, state := .online, type := .client }] kept (by simp))
      (by simp) (by simp))
  apply @either_ape (DialFine · i)
  · exact fine_enter (@fine_log _ i [.onConnect j ape.sockets.length] client (by simp) (by simp)) rfl
  · exact fine_enter client rfl

theorem fine_due {k : Nat} {async : ApeAsync} (kept : DialFine ape i) (due : ape.timers[k]? = some async)
    (other : async ≠ .socketFree i) : DialFine (dueApe ape k) i := by
  refine @fine_sockets ape _ i kept rfl rfl rfl fun member => ?_
  obtain ⟨l, here⟩ := List.getElem?_of_mem member
  refine List.mem_eraseIdx_iff_getElem?.mpr ⟨l, ?_, here⟩
  rintro rfl
  cases due.symm.trans here
  exact other rfl

/-- A socket that the timer frees is no longer among those that it will free. -/
theorem fine_freed {k : Nat} {socket : NetSocket} (kept : DialFine ape i) (due : ape.timers[k]? = some (.socketFree j))
    (here : ape.sockets[j]? = some socket) : DialFine ((dueApe ape k).change j ({ · with freed := true })) i := by
  by_cases same : j = i
  · subst same
    have there : ((dueApe ape k).change j ({ · with freed := true })).sockets[j]? = some { socket with freed := true } := by
      rw [Ape.change, List.getElem?_modify_eq]
      exact congrArg (Option.map _) here
    refine { unborn := fun absent => (by cases there.symm.trans absent), fine := fun changed there' tcp => ?_ }
    cases there.symm.trans there'
    exact @dialled_rests ape _ j socket _ [] (kept.fine socket here tcp) rfl (List.append_nil _).symm
      (fun _ => List.not_mem_nil) rfl rfl fun _ => .inr rfl
  · exact fine_change (fine_due kept due (by simp [same])) fun equal => absurd equal same

/-- A new state for which something else in the log answers. -/
theorem fine_onward {f : NetSocket → NetSocket} {events : List ApeEvent} {socket : NetSocket} (kept : DialFine ape i)
    (here : ape.sockets[j]? = some socket) (online : (f socket).state = .online)
    (undialed : ∀ state, .dialed i state ∉ events) (closed : events.count (.close i) = 0)
    (went : .established j ∈ events ∨ .listening j ∈ events) :
    DialFine ((ape.change j f).emit events) i := by
  by_cases same : j = i
  · subst same
    have there : ((ape.change j f).emit events).sockets[j]? = some (f socket) := by
      show (ape.sockets.modify j f)[j]? = _
      rw [List.getElem?_modify_eq, here]
      rfl
    refine fine_here there { pending := ?_, progress := ?_, offline := ?_, onward := fun _ _ => ?_ }
    · rw [online]
      exact fun _ pending => SocketState.noConfusion pending
    · rw [online]
      exact SocketState.noConfusion
    · rw [online]
      exact SocketState.noConfusion
    · exact went.imp (List.mem_append_right _) (List.mem_append_right _)
  · exact fine_log (fine_change kept fun equal => absurd equal same) undialed closed

/-- Where `bind` or `listen` fails, the descriptor of a socket is closed that waits for nothing. -/
theorem fine_unlistened {fd : Int} {socket : NetSocket} (kept : DialFine ape i) (here : ape.sockets[j]? = some socket)
    (offline : socket.state ≠ .offline) (progress : socket.state ≠ .progress) :
    DialFine ((ape.emit [.close j]).withEvents (ape.events.close fd)) i := by
  by_cases same : j = i
  · subst same
    refine { unborn := fun absent => (by cases here.symm.trans absent), fine := fun socket' here' tcp => ?_ }
    cases here.symm.trans here'
    have was := kept.fine socket here tcp
    have undialed : wasDialed ((ape.emit [.close j]).withEvents (ape.events.close fd)) j → wasDialed ape j := by
      rintro ⟨state, member⟩
      exact ⟨state, (List.mem_append.mp member).resolve_right (by simp)⟩
    refine { pending := fun dialed => was.pending (undialed dialed), progress := fun now => absurd now progress,
             offline := fun now => absurd now offline, onward := fun dialed online => ?_ }
    exact (was.onward (undialed dialed) online).imp (List.mem_append_left _) (List.mem_append_left _)
  · have others := @fine_log ape i [.close j] kept (by simp) (by simp [same])
    exact @fine_sockets _ _ i others rfl rfl rfl id

end Parts

section Runs

variable {ape next : Ape} {call : ApeCall}

theorem dials_well (well : dialsWell ape call = true) :
    findsOpen ape call = true ∧ ∀ dialing port, dialledWith ape call = some (dialing, port) →
      dialing.dial port ≠ .unbound ∧ registersWell ape call = true := by
  simp only [dialsWell, Bool.and_eq_true] at well
  refine ⟨well.1.1, fun dialing port dialed => ?_⟩
  have taken := well.1.2
  rw [dialed, Option.all_some, Bool.and_eq_true, Bool.not_eq_true'] at taken
  refine ⟨fun unbound => ?_, taken.2⟩
  rw [dial_unbound, taken.1] at unbound
  cases unbound

theorem registers_add {fd : Int} {accepted : Bool} (well : registersWell ape call = true) (done : ape.step call = .ok next)
    (change : pollChange ape call = some (.add fd accepted)) : accepted = true ∧ fd ∉ watchedFds ape.events := by
  rw [registersWell, done, change, Bool.and_eq_true, decide_eq_true_iff] at well
  exact well

/-- The answers to `bind` and `connect`, and the poller's. -/
theorem connect_answers {j : Nat} {port localport : BitVec 16} {numeric : Bool} {dialing : Dialing} {socket : NetSocket}
    (whole : ape.step (.connect j port localport numeric dialing) = .ok next)
    (dials : ∀ started port', dialledWith ape (.connect j port localport numeric dialing) = some (started, port') →
      started.dial port' ≠ .unbound ∧ registersWell ape (.connect j port localport numeric dialing) = true)
    (here : ape.sockets[j]? = some socket) (asked : port ≠ 0#16)
    (direct : numeric = true ∨ (ape.sockets[j]?.any (·.proto = .unix)) = true) :
    ∀ changed started, (portedApe ape j port localport).sockets[j]? = some changed → some dialing = some started →
      started.dial changed.localPort ≠ .unbound ∧
        (started.dial changed.localPort = .started → started.accepted = true ∧ changed.fd ∉ watchedFds ape.events) := by
  intro changed started there same
  cases same
  rw [portedApe, Ape.change, List.getElem?_modify_eq, here] at there
  cases there
  obtain ⟨bound, registers⟩ := dials dialing localport (if_pos ⟨asked, direct⟩)
  refine ⟨bound, fun started => ?_⟩
  have started' : dialing.dial localport = .started := started
  have added : pollChange ape (.connect j port localport numeric dialing) = some (.add socket.fd dialing.accepted) := by
    rw [pollChange, if_pos ⟨asked, direct⟩]
    simp [dialChange, here, started']
  exact registers_add registers whole added

theorem dial_step (once : ∀ i, ClosedOnce ape i) (all : ∀ i, DialFine ape i) (well : dialsWell ape call = true)
    (done : ape.step call = .ok next) : ∀ i, DialFine next i := by
  intro i
  have kept := all i
  obtain ⟨finds, dials⟩ := dials_well well
  have whole := done
  have ported : ∀ {j port localport}, DialFine (portedApe ape j port localport) i :=
    fine_change kept fun _ _ => ⟨rfl, rfl, id⟩
  cases ape_step_cases done with
  | @new proto from_ opened nonblocking =>
    apply fine_append kept
    intro socket new
    obtain ⟨-, fd, -, rfl⟩ := new_some (Option.mem_toList.mp new)
    exact .inl rfl
  | setCallbacks here => exact fine_change kept fun _ _ => ⟨rfl, rfl, id⟩
  | listenNowhere here unasked => exact kept
  | @listenFails j port isBound isListening accepted socket here asked fails =>
    obtain ⟨-, open_⟩ := opens_finds finds rfl rfl
    have unconnected : stateOf ape j ≠ some .progress := of_decide_eq_true (Bool.and_eq_true_iff.mp well).2
    rw [stateOf, here, Option.map_some] at open_ unconnected
    apply fine_unlistened kept here
    · exact fun state => open_ (congrArg some state)
    · exact fun state => unconnected (congrArg some state)
  | listens here asked succeeds =>
    apply fine_register
    exact fine_onward kept here rfl (by simp) (by simp) (.inr List.mem_cons_self)
  | connectNowhere unasked closed => exact fine_close kept closed
  | @connectUnix j port localport numeric dialing next socket here asked unix dialed =>
    obtain ⟨unclosed, open_⟩ := opens_finds finds rfl rfl
    exact fine_ready ported dialed unclosed (stateOf_ported.trans_ne open_)
      (connect_answers whole dials here asked (.inr (by simp [here, unix])))
  | @connectAddress j port localport numeric dialing next socket here asked address dialed =>
    obtain ⟨unclosed, open_⟩ := opens_finds finds rfl rfl
    have entered : DialFine ((portedApe ape j port localport).enter [.connect j]) i := fine_enter ported rfl
    exact fine_ready entered dialed unclosed (stateOf_ported.trans_ne open_)
      (connect_answers whole dials here asked (.inl address))
  | @connectName j port localport numeric dialing socket here asked stream name =>
    have asking := @fine_enter (portedApe ape j port localport) i [.ask ape.queries.length j] ported rfl
    exact @fine_sockets _ _ i asking rfl rfl rfl id
  | shutdown shut => exact fine_shutdown kept shut
  | shutdownNow shut => exact fine_shutdown kept shut
  | @abandoned q dialing params query undone invalid =>
    have freed := @fine_log ape i [.paramsFree q] kept (by simp) (by simp)
    exact @fine_sockets _ _ i freed rfl rfl rfl id
  | @resolved q dialing params next query undone valid dialed =>
    have touched : touchedSocket ape (.resolved q dialing) = some params.arg := by
      simp [touchedSocket, query, Option.filter, valid]
    obtain ⟨unclosed, open_⟩ := opens_finds finds touched rfl
    have finished : DialFine (finishedApe ape q) i := @fine_sockets ape _ i kept rfl rfl rfl id
    have called := @fine_enter _ i [.answer q] (@fine_log _ i [.called q] finished (by simp) (by simp)) rfl
    refine fine_ready called dialed ?_ open_ ?_
    · show (ape.log ++ [ApeEvent.called q]).count (.close params.arg) = 0
      rw [List.count_append, ← closesOf, unclosed]
      simp
    · intro socket started here same
      have here' : ape.sockets[params.arg]? = some socket := here
      subst same
      have address : dialledWith ape (.resolved q (some started)) = some (started, socket.localPort) := by
        simp [dialledWith, query, Option.filter, valid, here']
      obtain ⟨bound, registers⟩ := dials started socket.localPort address
      refine ⟨bound, fun dialed => ?_⟩
      have added : pollChange ape (.resolved q (some started)) = some (.add socket.fd started.accepted) := by
        simp [pollChange, query, valid, dialChange, here', dialed]
      have unwatched := registers_add registers whole added
      exact unwatched
  | ares stepped => exact @fine_sockets ape _ i kept rfl rfl rfl id
  | established idle here progress =>
    apply fine_called
    exact fine_onward kept here rfl (by simp) (by simp) (.inl List.mem_cons_self)
  | unestablished idle closed => exact fine_close kept closed
  | ended idle closed => exact fine_close kept closed
  | acceptable idle => exact fine_enter kept rfl
  | socketFree idle due here => exact fine_freed kept due here
  | socketDestroy idle due closed => exact fine_close (fine_due kept due (by simp)) closed
  | socketConnected idle due here => exact fine_called (fine_due kept due (by simp))
  | @paramsFree k q idle due =>
    have freed := @fine_log _ i [.paramsFree q] (fine_due kept due (by simp)) (by simp) (by simp)
    exact @fine_sockets _ _ i freed rfl rfl rfl id
  | returned frames => exact fine_popped kept frames rfl
  | closes frames here => exact fine_closed (once i) kept frames here
  | answered frames => exact fine_dispatch (fine_popped kept frames rfl)
  | asked frames record => exact fine_change (fine_popped kept frames rfl) fun _ _ => ⟨rfl, rfl, id⟩
  | connected frames => exact fine_change (fine_popped kept frames rfl) fun _ _ => ⟨rfl, rfl, id⟩
  | drained frames => exact fine_log (fine_popped kept frames rfl) (by simp) (by simp)
  | interrupted frames => exact fine_enter (fine_popped kept frames rfl) rfl
  | aborted frames => exact fine_popped kept frames rfl
  | accepted frames here opens => exact fine_accepted (fine_popped kept frames rfl)

/-- In a run whose calls dial well, no socket is left in between once it was dialed. -/
theorem dials_end (calls : List ApeCall) (each : EachStep Ape.step {} calls fun ape call => dialsWell ape call = true) :
    Throughout Ape.step {} calls fun ape => ∀ i socket, ape.sockets[i]? = some socket → socket.proto = .tcp →
      wasDialed ape i → DialEnds ape i socket := by
  have starts : ∀ i, ClosedOnce {} i ∧ DialFine {} i := by
    refine fun i => ⟨once_starts i, { unborn := ?_, fine := ?_ }⟩
    · rintro - ⟨state, member⟩
      cases member
    · intro socket here
      cases here
  intro before after ape split reached i socket here tcp dialed
  have keeps : ∀ ape call next, (∀ i, ClosedOnce ape i ∧ DialFine ape i) → dialsWell ape call = true →
      ape.step call = .ok next → ∀ i, ClosedOnce next i ∧ DialFine next i := by
    intro ape call next kept well done i
    have once : ∀ i, ClosedOnce ape i := fun i => (kept i).1
    exact ⟨once_step once (dials_well well).1 done i, dial_step once (fun i => (kept i).2) well done i⟩
  have kept := throughout_of_each starts keeps each before after ape split reached
  exact dial_ends ((kept i).2.fine socket here tcp) dialed

/-- A name is resolved after `APE_socket_connect`, and the local port is taken. -/
def boundElsewhere : List ApeCall :=
  [.new .tcp 0 (some 5) true, .connect 0 80#16 1024#16 false {}, .resume,
    .resolved 0 (some { bound := fun _ => false }), .resume]

theorem left_pending :
    ∃ ape socket, runAll Ape.step {} boundElsewhere = .ok ape ∧ ape.frames = [] ∧ ape.sockets[0]? = some socket ∧
      socket.proto = .tcp ∧ wasDialed ape 0 ∧ socket.state = .pending ∧ ¬ DialEnds ape 0 socket := by
  refine ⟨_, _, rfl, rfl, rfl, rfl, ⟨.pending, by decide⟩, rfl, ?_⟩
  rintro (⟨progress, -⟩ | ⟨offline, -⟩ | ⟨online | shut, -⟩)
  · cases progress
  · cases offline
  · cases online
  · cases shut

/-- Ten tries end in a socket that is closed, and another is established. -/
theorem dialed_ends :
    Throughout Ape.step {} [.new .tcp 0 (some 5) true, .new .tcp 0 (some 6) true,
        .connect 0 80#16 1024#16 false {}, .resume, .resolved 0 (some { reply := fun _ => .unavailable }), .resume, .resume,
        .connect 1 80#16 0#16 true {}, .resume, .established 1 false] fun ape =>
      ∀ i socket, ape.sockets[i]? = some socket → socket.proto = .tcp → wasDialed ape i → DialEnds ape i socket :=
  dials_end _ (each_of_check rfl)

end Runs

end ZapeProof
