import Zape.Ape.Requests

/-! What the calls that send do to the state of a socket and to its `WOULD_BLOCK` flag. -/
namespace ZapeProof

open Machine ZapeModel

def headActive (socket : ApeSocket) : Bool :=
  match socket.jobs.head with
  | none => false
  | some head => (socket.jobs.node head).active

/-- A call that sends was answered `EAGAIN`. -/
def refuses : SocketEvent → Bool
  | .write _ _ .again | .writev _ .again | .sendfile _ .again => true
  | _ => false

def Leaves (old new : World) : Prop :=
  new.socket.state = old.socket.state ∨ old.socket.state = .online ∧ new.socket.state = .shutdown

structure Steady (old new : World) : Prop where
  state : new.socket.state = old.socket.state
  wouldBlock : new.socket.wouldBlock = old.socket.wouldBlock
  out : ∃ events, new.out = old.out ++ events

/-- The flag is only set when the kernel refused something, and a job is only left at the head while it is set. -/
structure Signals (old new : World) : Prop where
  out : ∃ events, new.out = old.out ++ events ∧
    (new.socket.wouldBlock = true → old.socket.wouldBlock = true ∨ ∃ event ∈ events, refuses event = true)
  blocked : old.socket.wouldBlock = true → new.socket.wouldBlock = true
  head : headActive new.socket = true → headActive old.socket = true ∨ new.socket.wouldBlock = true

structure Sent (old new : World) : Prop extends Signals old new where
  state : Leaves old new

section Relations

variable {old middle new world : World}

theorem Steady.refl (world : World) : Steady world world := ⟨rfl, rfl, [], by simp⟩

theorem Steady.trans (first : Steady old middle) (second : Steady middle new) : Steady old new where
  state := second.state.trans first.state
  wouldBlock := second.wouldBlock.trans first.wouldBlock
  out := by
    obtain ⟨early, out⟩ := first.out
    obtain ⟨late, out'⟩ := second.out
    exact ⟨early ++ late, by rw [out', out, List.append_assoc]⟩

theorem Leaves.trans (first : Leaves old middle) (second : Leaves middle new) : Leaves old new := by
  rcases first with same | ⟨online, shut⟩
  · rw [Leaves, same] at second
    exact second
  · rcases second with same | ⟨impossible, -⟩
    · exact .inr ⟨online, same.trans shut⟩
    · cases shut.symm.trans impossible

theorem Signals.trans (first : Signals old middle) (second : Signals middle new) : Signals old new where
  out := by
    obtain ⟨early, out, refused⟩ := first.out
    obtain ⟨late, out', refused'⟩ := second.out
    refine ⟨early ++ late, by rw [out', out, List.append_assoc], fun set => ?_⟩
    rcases refused' set with before | ⟨event, member, refuses⟩
    · apply (refused before).imp_right
      rintro ⟨event, member, refuses⟩
      exact ⟨event, List.mem_append_left _ member, refuses⟩
    · exact .inr ⟨event, List.mem_append_right _ member, refuses⟩
  blocked := fun set => second.blocked (first.blocked set)
  head := by
    intro active
    rcases second.head active with before | set
    · exact (first.head before).imp_right second.blocked
    · exact .inr set

theorem Sent.trans (first : Sent old middle) (second : Sent middle new) : Sent old new :=
  ⟨first.toSignals.trans second.toSignals, first.state.trans second.state⟩

theorem sent_log (socket : new.socket = old.socket) {events : List SocketEvent} (out : new.out = old.out ++ events) :
    Sent old new where
  state := .inl (by rw [socket])
  out := ⟨events, out, by rw [socket]; exact .inl⟩
  blocked := by rw [socket]; exact id
  head := by rw [socket]; exact .inl

theorem shutdownNow_online (online : world.socket.state = .online) :
    apeSocketShutdownNow world = { world with socket := { world.socket with state := .shutdown } }.emit [.shutdown] := by
  simp only [apeSocketShutdownNow, online]

theorem shutdownNow_state (online : world.socket.state = .online) :
    (apeSocketShutdownNow world).socket.state = .shutdown := by
  rw [shutdownNow_online online]
  rfl

theorem shutdownNow_sent (online : world.socket.state = .online) : Sent world (apeSocketShutdownNow world) := by
  obtain ⟨state, events, shut, -⟩ := shutdownNow_kept world
  have leaves : Leaves world (apeSocketShutdownNow world) := .inr ⟨online, shutdownNow_state online⟩
  rw [shut] at leaves ⊢
  exact { state := leaves, out := ⟨events, rfl, .inl⟩, blocked := id, head := .inl }

end Relations

section Queue

variable {world next : World}

theorem getSlot_steady {socket socket' : ApeSocket} {type : BitVec 32} {job : Nat}
    (got : apeSocketJobGetSlot socket type = .ok (socket', job)) :
    socket'.state = socket.state ∧ socket'.wouldBlock = socket.wouldBlock := by
  unfold apeSocketJobGetSlot at got
  split at got
  · cases got
  · dsimp only at got
    split at got
    · cases got
      exact ⟨rfl, rfl⟩
    · split at got
      · cases got
      · cases got
        exact ⟨rfl, rfl⟩

theorem queueData_sent (online : world.socket.state = .online)
    (waits : world.socket.wouldBlock = true ∨ headActive world.socket = true) {data : List Byte} {offset : SizeT}
    {dataType : DataAutorelease} (queued : apeSocketQueueData world data offset dataType = .ok next) :
    Sent world next := by
  unfold apeSocketQueueData at queued
  dsimp only at queued
  split at queued
  · cases queued
  · rename_i socket job got
    obtain ⟨state, wouldBlock⟩ := getSlot_steady got
    split at queued
    · cases queued
    · split at queued
      · cases queued
      · rename_i plist _ _
        have stays : ∀ other : World, other.socket.state = socket.state → other.socket.wouldBlock = socket.wouldBlock →
            (∃ events, other.out = world.out ++ events) → Sent world other := by
          rintro other same flag ⟨events, out⟩
          refine { state := .inl (same.trans state), out := ⟨events, out, ?_⟩, blocked := ?_, head := fun _ => ?_ }
          · rw [flag, wouldBlock]
            exact .inl
          · rw [flag, wouldBlock]
            exact id
          · rw [flag, wouldBlock]
            exact waits.symm
        cases queued
        split
        · refine (stays _ rfl rfl ⟨_, rfl⟩).trans (shutdownNow_sent ?_)
          exact state.trans online
        · exact stays _ rfl rfl ⟨_, rfl⟩

end Queue

section Write

variable {kernel : Kernel} {data : List Byte} {dataType : DataAutorelease} {fuel : Nat} {world next : World} {ret : Int}

theorem writeReturn_sent (online : world.socket.state = .online) (ioError : Bool) :
    Sent world (writeReturn dataType world ioError).1 := by
  let released := apeSocketReleaseData (.caller world.handed) (if dataType = .copy then .own else dataType)
  have freed : Sent world (world.emit released) := sent_log rfl rfl
  cases ioError with
  | false => exact freed
  | true => exact freed.trans (shutdownNow_sent online)

theorem writeTurn_sent {writing : Writing} (online : world.socket.state = .online)
    (socket : writing.world.socket = world.socket) (sent : Sent world writing.world) :
    (∃ after, writeTurn kernel data dataType writing = .again after ∧ after.world.socket = world.socket ∧
        Sent world after.world) ∨
      ∃ result, writeTurn kernel data dataType writing = .done result ∧
        ∀ next ret, result = .ok (next, ret) → Sent world next := by
  let reply := kernel.reply writing.world.calls writing.rBytes.toNat
  let called : World :=
    { writing.world with calls := writing.world.calls + 1 }.emit [.write writing.tBytes.toNat writing.rBytes.toNat reply]
  have logged : Sent world called := sent.trans (sent_log rfl rfl)
  have still : called.socket.state = .online := by
    show writing.world.socket.state = _
    rw [socket, online]
  have returns : ∀ failed ioError next ret, Sent world failed → failed.socket.state = .online →
      Except.ok (writeReturn dataType failed ioError) = (.ok (next, ret) : Except Fault (World × Int)) → Sent world next := by
    intro failed ioError next ret before state result
    have after := @writeReturn_sent dataType failed state ioError
    rw [Except.ok.inj result] at after
    exact before.trans after
  rw [writeTurn]
  split
  · dsimp only
    split
    · exact .inl ⟨_, rfl, socket, logged⟩
    · rename_i answer
      split
      · refine .inr ⟨_, rfl, ?_⟩
        intro next ret queued
        have blocks : Sent world { called with socket := { called.socket with wouldBlock := true } } := by
          obtain ⟨events, out, -⟩ := sent.out
          refine { state := logged.state, out := ⟨events ++ [.write writing.tBytes.toNat writing.rBytes.toNat reply], ?_, ?_⟩,
                   blocked := fun _ => rfl, head := fun _ => .inr rfl }
          · show writing.world.out ++ _ = _
            rw [out, List.append_assoc]
          · refine fun _ => .inr ⟨_, List.mem_append_right _ (List.mem_singleton_self _), ?_⟩
            simp only [reply, answer, refuses]
        exact blocks.trans (queueData_sent still (.inl rfl) (queueData_map queued))
      · exact .inr ⟨_, rfl, fun next ret => returns called true next ret logged still⟩
    · exact .inr ⟨_, rfl, fun next ret => returns called true next ret logged still⟩
    · exact .inr ⟨_, rfl, fun next ret => returns called true next ret logged still⟩
  · refine .inr ⟨_, rfl, fun next ret => returns writing.world false next ret sent ?_⟩
    rw [socket, online]

theorem write_sent (returned : apeSocketWrite kernel data dataType fuel world = some (.ok (next, ret))) :
    Sent world next := by
  rw [apeSocketWrite] at returned
  split at returned
  · cases returned
    exact sent_log rfl rfl
  · rename_i open_
    have online : world.socket.state = .online := by
      by_contra closed
      exact open_ (.inl closed)
    split at returned
    · cases returned
    · rename_i head first
      split at returned
      · rename_i waits
        refine queueData_sent online (waits.imp_right fun active => ?_) (queueData_map (Option.some.inj returned))
        rw [headActive, first]
        exact active
      · have post := @loop_result _ _ (writeTurn kernel data dataType) _
          (fun writing => writing.world.socket = world.socket ∧ Sent world writing.world)
          (fun result => ∀ next ret, result = .ok (next, ret) → Sent world next)
          (fun writing before => ?_) fuel _ ⟨rfl, sent_log rfl (List.append_nil _).symm⟩ returned
        · exact post next ret rfl
        · exact writeTurn_sent online before.1 before.2

end Write

section Api

variable {kernel : Kernel} {maxChunks fuel : Nat} {world next : World} {ret : Int}

theorem queueFile_steady {fd : Nat} (queued : queueFile world fd = .ok (next, ret)) :
    next.socket.state = world.socket.state ∧ next.socket.wouldBlock = true ∧ next.out = world.out := by
  unfold queueFile at queued
  dsimp only at queued
  cases got : apeSocketJobGetSlot { world.socket with wouldBlock := true } apeSocketJobSendfile with
  | error fault =>
    rw [got] at queued
    cases queued
  | ok slot =>
    obtain ⟨socket, job⟩ := slot
    obtain ⟨state, wouldBlock⟩ := getSlot_steady got
    rw [got] at queued
    cases queued
    exact ⟨state, wouldBlock, rfl⟩

theorem sendTurn_sent {called : World} {fd : Nat} (socket : called.socket = world.socket) (sent : Sent world called) :
    (∃ after, sendTurn kernel fd called = .again after ∧ after.socket = world.socket ∧ Sent world after) ∨
      ∃ result, sendTurn kernel fd called = .done result ∧ ∀ next ret, result = .ok (next, ret) → Sent world next := by
  let reply := kernel.sendfile called.calls
  have logged : Sent world ({ called with calls := called.calls + 1 }.emit [.sendfile fd reply]) :=
    sent.trans (sent_log rfl rfl)
  rw [sendTurn]
  split
  · exact .inl ⟨_, rfl, socket, logged⟩
  · rename_i answer
    refine .inr ⟨_, rfl, ?_⟩
    intro next ret queued
    obtain ⟨state, wouldBlock, out⟩ := queueFile_steady queued
    obtain ⟨events, before, -⟩ := sent.out
    have leaves : Leaves world next := by
      rw [Leaves, state]
      exact logged.state
    refine { state := leaves, out := ⟨events ++ [.sendfile fd reply], ?_, ?_⟩, blocked := fun _ => wouldBlock,
             head := fun _ => .inr wouldBlock }
    · rw [out, ← List.append_assoc, ← before]
      rfl
    · refine fun _ => .inr ⟨_, List.mem_append_right _ (List.mem_singleton_self _), ?_⟩
      simp only [reply, answer, refuses]
  · refine .inr ⟨_, rfl, ?_⟩
    intro next ret result
    cases result
    exact logged.trans (sent_log rfl rfl)

theorem sendfile_sent {file : Option Nat} (returned : apeSendfile kernel fuel file world = some (.ok (next, ret)))
    (waits : file ≠ none → world.socket.state = .online → headActive world.socket = true → world.socket.wouldBlock = true) :
    Sent world next := by
  unfold apeSendfile at returned
  split at returned
  · cases returned
    exact sent_log rfl (List.append_nil _).symm
  · rename_i open_
    have online := not_not.mp open_
    split at returned
    · cases returned
      exact sent_log rfl (List.append_nil _).symm
    · split at returned
      · cases returned
      · rename_i fd _ head first
        split at returned
        · rename_i blocks
          have set : world.socket.wouldBlock = true := by
            rcases blocks with set | active
            · exact set
            · refine waits nofun online ?_
              rw [headActive, first]
              exact active
          obtain ⟨state, wouldBlock, out⟩ := queueFile_steady (Option.some.inj returned)
          exact { state := .inl state, out := ⟨[], by rw [out, List.append_nil], fun _ => .inl set⟩,
                  blocked := fun _ => wouldBlock, head := fun _ => .inr wouldBlock }
        · have post := @loop_result _ _ (sendTurn kernel fd) world
            (fun called => called.socket = world.socket ∧ Sent world called)
            (fun result => ∀ next ret, result = .ok (next, ret) → Sent world next)
            (fun called before => sendTurn_sent before.1 before.2) fuel _
            ⟨rfl, sent_log rfl (List.append_nil _).symm⟩ returned
          exact post next ret rfl

theorem shutdown_sent (online : world.socket.state = .online) (returned : apeSocketShutdown world = .ok next) :
    Sent world next := by
  simp only [apeSocketShutdown, online] at returned
  split at returned
  · cases returned
  · rename_i head first
    split at returned
    · rename_i waits
      cases got : apeSocketJobGetSlot world.socket apeSocketJobShutdown with
      | error fault =>
        rw [got] at returned
        cases returned
      | ok slot =>
        obtain ⟨socket, job⟩ := slot
        obtain ⟨state, wouldBlock⟩ := getSlot_steady got
        rw [got] at returned
        cases returned
        refine { state := .inl state, out := ⟨[], (List.append_nil _).symm, ?_⟩, blocked := ?_, head := fun _ => ?_ }
        · show socket.wouldBlock = true → _
          rw [wouldBlock]
          exact .inl
        · show _ → socket.wouldBlock = true
          rw [wouldBlock]
          exact id
        · rcases waits with set | active
          · exact .inr (wouldBlock.trans set)
          · refine .inl ?_
            rw [headActive, first]
            exact active
    · cases returned
      exact { state := .inr ⟨online, rfl⟩, out := ⟨_, rfl, .inl⟩, blocked := id, head := .inl }

end Api

section Jobs

variable {kernel : Kernel} {maxChunks : Nat} {start world : World} {njobsdone : Nat}

/-- What `ape_socket_do_jobs` ends with: the socket was shut down, no job is left at the head, or the kernel refused. -/
structure Flushed (old new : World) (ret : Int) : Prop where
  state : Leaves old new
  stays : ret ≠ -1 → new.socket.state = old.socket.state
  out : ∃ events, new.out = old.out ++ events ∧
    (new.socket.wouldBlock = true → old.socket.wouldBlock = true ∨ ∃ event ∈ events, refuses event = true)
  blocked : old.socket.wouldBlock = true → new.socket.wouldBlock = true
  head : new.socket.state = .online → headActive new.socket = true → new.socket.wouldBlock = true

/-- A turn that goes on leaves the flag alone, and one that ends the jobs leaves them flushed. -/
def TurnFlushed (start : World) : JobsTurn → Prop
  | .again next => Steady start next.world
  | .done (.ok (next, ret)) => Flushed start next ret
  | .done (.error _) => True

theorem steady_emit (steady : Steady start world) (events : List SocketEvent) : Steady start (world.emit events) :=
  steady.trans ⟨rfl, rfl, events, rfl⟩

theorem finishJob_flushed (steady : Steady start world) (job : Nat) : TurnFlushed start (finishJob world njobsdone job) := by
  rw [finishJob]
  dsimp only
  split
  · trivial
  · exact ⟨steady.state, steady.wouldBlock, steady.out⟩

theorem flushed_shut (steady : Steady start world) (online : start.socket.state = .online) {shut : World}
    (state : shut.socket.state = .shutdown) (flag : shut.socket.wouldBlock = world.socket.wouldBlock)
    (out : ∃ events, shut.out = world.out ++ events) : Flushed start shut (-1) := by
  obtain ⟨early, before⟩ := steady.out
  obtain ⟨late, after⟩ := out
  refine { state := .inr ⟨online, state⟩, stays := fun returned => absurd rfl returned,
           out := ⟨early ++ late, by rw [after, before, List.append_assoc], ?_⟩, blocked := ?_, head := fun still => ?_ }
  · rw [flag, steady.wouldBlock]
    exact .inl
  · rw [flag, steady.wouldBlock]
    exact id
  · cases state.symm.trans still

theorem refused_flushed (steady : Steady start world) {event : SocketEvent} (refused : refuses event = true)
    {blocked : World} {ret : Int} (state : blocked.socket.state = world.socket.state)
    (flag : blocked.socket.wouldBlock = true) (out : blocked.out = world.out ++ [event]) : Flushed start blocked ret := by
  obtain ⟨early, before⟩ := steady.out
  refine { state := .inl (state.trans steady.state), stays := fun _ => state.trans steady.state,
           out := ⟨early ++ [event], by rw [out, before, List.append_assoc], fun _ => .inr ⟨event, by simp, refused⟩⟩,
           blocked := fun _ => flag, head := fun _ _ => flag }

theorem jobTurn_flushed (steady : Steady start world) (online : start.socket.state = .online) :
    TurnFlushed start (jobTurn maxChunks world njobsdone) := by
  obtain ⟨events, out⟩ := steady.out
  have ends : headActive world.socket = false → Flushed start world njobsdone := by
    intro inactive
    refine { state := .inl steady.state, stays := fun _ => steady.state, out := ⟨events, out, ?_⟩, blocked := ?_,
             head := fun _ active => ?_ }
    · rw [steady.wouldBlock]
      exact .inl
    · rw [steady.wouldBlock]
      exact id
    · cases inactive.symm.trans active
  unfold jobTurn
  split
  · rename_i none
    refine ends ?_
    rw [headActive, none]
  · rename_i job head
    dsimp only
    split
    · rename_i inactive
      refine ends ?_
      rw [headActive, head]
      exact Bool.not_eq_true' _ |>.mp inactive
    · split
      · split
        · trivial
        · trivial
        · exact steady
      · split
        · split
          · exact steady
          · trivial
        · split
          · -- the job of a shutdown
            have still : world.socket.state = .online := steady.state.trans online
            simp only [still, TurnFlushed]
            exact flushed_shut steady online rfl rfl ⟨_, rfl⟩
          · exact finishJob_flushed steady job

theorem afterPackets_flushed (steady : Steady start world) (job : Nat) (plist : PoolList Packet) :
    TurnFlushed start (afterPackets maxChunks world njobsdone job plist) := by
  unfold afterPackets
  split
  · trivial
  · split
    · have stored : Steady start (storeList world job plist) := ⟨steady.state, steady.wouldBlock, steady.out⟩
      exact finishJob_flushed stored job
    · exact steady

theorem consumeTurn_flushed (steady : Steady start world) (job : Nat) (plist : PoolList Packet) (n : SizeT) :
    TurnFlushed start (consumeTurn maxChunks world njobsdone job plist n) := by
  unfold consumeTurn
  split
  · trivial
  · dsimp only
    split
    · exact afterPackets_flushed steady job plist
    · split
      · exact afterPackets_flushed steady job _
      · split
        · trivial
        · split
          · exact afterPackets_flushed (steady_emit steady _) job _
          · exact steady_emit steady _

theorem rewriteTurn_flushed (steady : Steady start world) (online : start.socket.state = .online) (job : Nat)
    (plist : PoolList Packet) (chunks : List (List Byte)) :
    TurnFlushed start (rewriteTurn kernel world njobsdone job plist chunks) := by
  have logged := steady_emit steady [.writev chunks (kernel.reply world.calls chunks.flatten.length)]
  rw [rewriteTurn]
  dsimp only
  split
  · rename_i answer
    refine refused_flushed steady ?_ rfl rfl rfl
    rw [answer, refuses]
  · exact ⟨logged.state, logged.wouldBlock, logged.out⟩
  · obtain ⟨state, events, shut, -⟩ :=
      shutdownNow_kept (storeList ({ world with calls := world.calls + 1 }.emit
        [.writev chunks (kernel.reply world.calls chunks.flatten.length)]) job plist)
    have still : world.socket.state = .online := steady.state.trans online
    let event := SocketEvent.writev chunks (kernel.reply world.calls chunks.flatten.length)
    refine flushed_shut steady online (shutdownNow_state still) ?_ ⟨[event] ++ events, ?_⟩
    · rw [shut]
      rfl
    · rw [shut]
      exact List.append_assoc _ _ _
  · exact ⟨logged.state, logged.wouldBlock, logged.out⟩

theorem sendfileTurn_flushed (steady : Steady start world) (job fd : Nat) :
    TurnFlushed start (sendfileTurn kernel world njobsdone job fd) := by
  have logged := steady_emit steady [.sendfile fd (kernel.sendfile world.calls)]
  rw [sendfileTurn]
  dsimp only
  split
  · exact ⟨logged.state, logged.wouldBlock, logged.out⟩
  · rename_i answer
    refine refused_flushed steady ?_ rfl rfl rfl
    rw [answer, refuses]
  · have closed := steady_emit logged [.closeFile fd]
    let called := ({ world with calls := world.calls + 1 }.emit [.sendfile fd (kernel.sendfile world.calls)]).emit
      [.closeFile fd]
    have emptied : Steady start
        { called with socket := { called.socket with jobs := called.socket.jobs.setContent job .null } } :=
      ⟨closed.state, closed.wouldBlock, closed.out⟩
    exact finishJob_flushed emptied job

theorem doJobsTurn_flushed {doing : DoingJobs} (steady : Steady start doing.world) (online : start.socket.state = .online) :
    TurnFlushed start (doJobsTurn kernel maxChunks doing) := by
  rw [doJobsTurn]
  split
  · exact jobTurn_flushed steady online
  · exact rewriteTurn_flushed steady online _ _ _
  · exact consumeTurn_flushed steady _ _ _
  · exact sendfileTurn_flushed steady _ _

theorem doJobs_flushed (online : world.socket.state = .online) {fuel : Nat} {last : World} {ret : Int}
    (returned : apeSocketDoJobs kernel maxChunks fuel world = some (.ok (last, ret))) : Flushed world last ret := by
  have post := @loop_result _ _ (doJobsTurn kernel maxChunks) { world } (fun doing => Steady world doing.world)
    (fun result => ∀ last ret, result = .ok (last, ret) → Flushed world last ret) ?_ fuel _ (Steady.refl world) returned
  · exact post last ret rfl
  · intro doing steady
    have turn := @doJobsTurn_flushed kernel maxChunks world doing steady online
    cases outcome : doJobsTurn kernel maxChunks doing with
    | again next =>
      rw [outcome] at turn
      exact .inl ⟨next, rfl, turn⟩
    | done result =>
      refine .inr ⟨result, rfl, ?_⟩
      rintro last ret rfl
      rw [outcome] at turn
      exact turn

end Jobs

end ZapeProof
