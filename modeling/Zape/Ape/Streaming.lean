import Zape.Ape.Blocking
import Zape.Ape.Graceful
import Zape.Machine.Transducer

/-! The bytes that the kernel takes from a plain socket, in the order in which it takes them. -/
namespace ZapeModel

open Machine

/-- So many bytes of the memory at an offset of the data, past whose end lies what happens to be there. -/
def readMemory (data : List Byte) (behind : Nat → Byte) (offset count : Nat) : List Byte :=
  (List.range count).map fun index => data[offset + index]?.getD (behind (offset + index - data.length))

def takenBytes (behind : Nat → Byte) (data : List Byte) : SocketEvent → List Byte
  | .write offset _ (.accepted count) => readMemory data behind offset count
  | .writev chunks (.accepted count) => chunks.flatten.take count
  | _ => []

def SocketCall.given : SocketCall → List Byte
  | .write data _ => data.bytes
  | .writable | .doJobs => []

/-- One call on the socket, and what the kernel takes meanwhile. -/
def World.sends (kernel : Kernel) (behind : Nat → Byte) (maxChunks fuel : Nat) : Transition Stop World SocketCall Byte
  | world, call =>
    match world.perform kernel maxChunks fuel call with
    | none => .error .endless
    | some (.error fault) => .error (.fault fault)
    | some (.ok next) => .ok (next, (next.out.drop world.out.length).flatMap (takenBytes behind call.given))

end ZapeModel

namespace ZapeProof

open Machine ZapeModel

/-- A kernel that takes a part only of what it is offered has no room left, and the next call finds none either. -/
def Fills (kernel : Kernel) : Prop :=
  ∀ call offered count, kernel.reply call offered = .accepted count → count < offered →
    ∀ more taken, kernel.reply (call + 1) more ≠ .accepted taken

theorem readMemory_inside {data : List Byte} (behind : Nat → Byte) {offset count : Nat}
    (inside : offset + count ≤ data.length) : readMemory data behind offset count = (data.drop offset).take count := by
  apply List.ext_getElem
  · rw [readMemory, List.length_map, List.length_range, List.length_take, List.length_drop]
    omega
  · intro index low high
    have within : index < count := by simpa [readMemory] using low
    have present : offset + index < data.length := by omega
    simp only [readMemory, List.getElem_map, List.getElem_range, List.getElem_take, List.getElem_drop,
      List.getElem?_eq_getElem present, Option.getD_some]

section Write

variable {kernel : Kernel} {behind : Nat → Byte} {data : List Byte} {dataType : DataAutorelease} {world : World}
  {pending : List (List Byte)}

def taken (behind : Nat → Byte) (data : List Byte) (events : List SocketEvent) : List Byte :=
  events.flatMap (takenBytes behind data)

theorem taken_append (left right : List SocketEvent) :
    taken behind data (left ++ right) = taken behind data left ++ taken behind data right := List.flatMap_append

theorem taken_aside {events : List SocketEvent} (only : ∀ event ∈ events, aside event = true) :
    taken behind data events = [] := by
  unfold taken
  rw [List.flatMap_eq_nil_iff]
  intro event member
  have this := only event member
  cases event <;> first | rfl | cases this

/-- In the loop around `write`: so much of the data was taken, and if that is a part only, the next call takes nothing. -/
structure Pouring (kernel : Kernel) (behind : Nat → Byte) (data : List Byte) (start : World) (writing : Writing) :
    Prop where
  whole : writing.rBytes = BitVec.ofNat 64 data.length
  socket : writing.world.socket = start.socket
  inside : writing.tBytes.toNat ≤ data.length
  full : 0 < writing.tBytes.toNat → writing.tBytes.toNat < data.length →
    ∀ offered count, kernel.reply writing.world.calls offered ≠ .accepted count
  log : ∃ events, writing.world.out = start.out ++ events ∧ (∀ event ∈ events, direct event = true) ∧
    taken behind data events = data.take writing.tBytes.toNat

/-- What a call of `APE_socket_write` leads to: all of the data is taken or queued, and it is only taken when nothing
    waits; or the socket is given up. -/
def Poured (behind : Nat → Byte) (data : List Byte) (start next : World) (pending : List (List Byte)) : Prop :=
  ∃ events, next.out = start.out ++ events ∧ flushed events = [] ∧
    (taken behind data events ++ (queuedSuffixes events).flatten = data ∧ (taken behind data events = [] ∨ pending = []) ∨
      next.socket.state ≠ .online ∧ queuedSuffixes events = [] ∧ pending = [] ∧ taken behind data events <+: data)

theorem direct_snoc {events : List SocketEvent} (only : ∀ event ∈ events, direct event = true) {event : SocketEvent}
    (last : direct event = true) : ∀ other ∈ events ++ [event], direct other = true := by
  intro other member
  rcases List.mem_append.mp member with old | new
  · exact only other old
  · rw [List.mem_singleton.mp new]
    exact last

theorem taken_refused {offset length : Nat} {reply : Reply} (refused : ∀ count, reply ≠ .accepted count) :
    taken behind data [.write offset length reply] = [] := by
  cases reply with
  | accepted count => exact absurd rfl (refused count)
  | again => rfl
  | interrupted => rfl
  | failed => rfl

theorem poured_queue {called : World} {events : List SocketEvent} {offset : SizeT}
    (current : called.socket.jobs.current = some 0) (takes : TakesData (called.socket.jobs.node 0).flags)
    (holds : JobHolds (called.socket.jobs.node 0).content pending) (object : data.length < 2 ^ 63)
    (inside : offset.toNat < data.length) (out : called.out = world.out ++ events)
    (only : ∀ event ∈ events, direct event = true) (before : taken behind data events = data.take offset.toNat)
    (none : offset = 0#64 ∨ pending = []) :
    ∃ next, apeSocketQueueData called data offset dataType = .ok next ∧ Poured behind data world next pending := by
  obtain ⟨plist, total, state, more, queued, -, quiet⟩ :=
    queueData_stores current takes holds object inside dataType
  let suffix := data.drop offset.toNat
  have unsent : taken behind data (.queued suffix :: more) = [] := by
    show taken behind data more = []
    exact taken_aside quiet
  refine ⟨_, queued, events ++ (.queued suffix :: more), ?_, ?_, .inl ⟨?_, ?_⟩⟩
  · show called.out ++ [.queued suffix] ++ more = _
    rw [out, List.append_assoc, List.append_assoc, List.singleton_append]
  · rw [flushed_append, flushed_direct only, List.nil_append]
    show flushed more = []
    exact flushed_aside quiet
  · have own : queuedSuffixes (.queued suffix :: more) = [suffix] := by
      show suffix :: queuedSuffixes more = _
      rw [queuedSuffixes_aside quiet]
    rw [taken_append, queuedSuffixes_append, queued_direct only, own, unsent, before]
    simp [suffix]
  · rw [taken_append, unsent, before, List.append_nil]
    rcases none with rfl | empty
    · exact .inl rfl
    · exact .inr empty

theorem pouring_turn (fills : Fills kernel) (current : world.socket.jobs.current = some 0)
    (takes : TakesData (world.socket.jobs.node 0).flags) (holds : JobHolds (world.socket.jobs.node 0).content [])
    (online : world.socket.state = .online) (object : data.length < 2 ^ 63) {writing : Writing}
    (pouring : Pouring kernel behind data world writing) :
    (∃ next, writeTurn kernel data dataType writing = .again next ∧ Pouring kernel behind data world next) ∨
      ∃ result, writeTurn kernel data dataType writing = .done result ∧
        ∃ next ret, result = .ok (next, ret) ∧ Poured behind data world next [] := by
  obtain ⟨events, out, only, before⟩ := pouring.log
  by_cases within : writing.tBytes.toNat < data.length
  · have turn := @turn_within kernel data dataType writing object within pouring.whole
    let reply := kernel.reply writing.world.calls data.length
    let event := SocketEvent.write writing.tBytes.toNat data.length reply
    let called := wrote kernel writing.world writing.tBytes.toNat data.length
    have logged : called.out = world.out ++ (events ++ [event]) := by
      rw [← List.append_assoc, ← out]
      rfl
    have still : ∀ other ∈ events ++ [event], direct other = true := direct_snoc only rfl
    have same : (∀ count, reply ≠ .accepted count) →
        taken behind data (events ++ [event]) = data.take writing.tBytes.toNat := by
      intro refused
      rw [taken_append, before, taken_refused refused, List.append_nil]
    have failed : (∀ count, reply ≠ .accepted count) →
        Poured behind data world (writeReturn dataType called true).1 [] := by
      intro refused
      have still_online : (called.emit (apeSocketReleaseData (.caller called.handed)
          (if dataType = .copy then .own else dataType))).socket.state = .online := by
        show writing.world.socket.state = _
        rw [pouring.socket, online]
      let released := apeSocketReleaseData (.caller called.handed) (if dataType = .copy then .own else dataType)
      have frees : OnlyFrees released := release_free _ _
      obtain ⟨state, more, shut, quiet⟩ := shutdownNow_kept (called.emit released)
      have released_aside : ∀ event ∈ released ++ more, aside event = true := by
        intro other member
        rcases List.mem_append.mp member with first | second
        · exact frees_aside frees other first
        · exact quiet other second
      refine ⟨events ++ [event] ++ (released ++ more), ?_, ?_, .inr ⟨?_, ?_, rfl, ?_⟩⟩
      · show (apeSocketShutdownNow (called.emit released)).out = _
        rw [shut]
        show called.out ++ released ++ more = _
        rw [logged]
        simp only [List.append_assoc]
      · rw [flushed_append, flushed_direct still, flushed_aside released_aside, List.append_nil]
      · show (apeSocketShutdownNow (called.emit released)).socket.state ≠ .online
        rw [shutdownNow_state still_online]
        simp
      · rw [queuedSuffixes_append, queued_direct still, queuedSuffixes_aside released_aside, List.append_nil]
      · rw [taken_append, same refused, taken_aside released_aside, List.append_nil]
        exact List.take_prefix _ _
    dsimp only at turn
    cases answer : reply with
    | accepted count =>
      simp only [show kernel.reply writing.world.calls data.length = _ from answer] at turn
      obtain ⟨most, short, -⟩ := kernel.honest _ _ _ answer
      -- a part was taken only if nothing was taken before it
      have fresh : writing.tBytes.toNat = 0 := by
        by_contra some_taken
        exact pouring.full (by omega) within _ _ answer
      have moved : (writing.tBytes + BitVec.ofNat 64 count).toNat = count := by
        rw [BitVec.toNat_add, toNat_ofNat_size short, fresh]
        omega
      refine .inl ⟨_, turn, { whole := pouring.whole, socket := pouring.socket, inside := ?_, full := ?_,
                              log := ⟨_, logged, still, ?_⟩ }⟩
      · show (writing.tBytes + BitVec.ofNat 64 count).toNat ≤ _
        omega
      · intro _ part
        have less : count < data.length := by
          rw [← moved]
          exact part
        exact fills _ _ _ answer less
      · show taken behind data (events ++ [event]) = data.take (writing.tBytes + BitVec.ofNat 64 count).toNat
        have one : taken behind data [event] = readMemory data behind 0 count := by
          simp only [taken, List.flatMap_singleton, event, fresh, answer, takenBytes]
        rw [taken_append, before, moved, fresh, one, readMemory_inside behind (by omega)]
        rfl
    | again =>
      simp only [show kernel.reply writing.world.calls data.length = _ from answer] at turn
      let blocked : World := { called with socket := { called.socket with wouldBlock := true } }
      have socket : blocked.socket = { world.socket with wouldBlock := true } := by
        rw [← pouring.socket]
        rfl
      obtain ⟨next, queued, poured⟩ := @poured_queue behind data dataType world [] blocked (events ++ [event])
        writing.tBytes (by rw [socket]; exact current) (by rw [socket]; exact takes) (by rw [socket]; exact holds) object
        within logged still (same (by simp [answer])) (.inr rfl)
      rw [queued] at turn
      exact .inr ⟨_, turn, next, _, rfl, poured⟩
    | interrupted =>
      simp only [show kernel.reply writing.world.calls data.length = _ from answer] at turn
      exact .inr ⟨_, turn, _, _, rfl, failed (by simp [answer])⟩
    | failed =>
      simp only [show kernel.reply writing.world.calls data.length = _ from answer] at turn
      exact .inr ⟨_, turn, _, _, rfl, failed (by simp [answer])⟩
  · have turn := @turn_beyond kernel data dataType writing object (by omega)
    let released := apeSocketReleaseData (.caller writing.world.handed) (if dataType = .copy then .own else dataType)
    have frees : OnlyFrees released := release_free _ _
    have quiet : ∀ event ∈ released, aside event = true := frees_aside frees
    refine .inr ⟨_, turn, _, 0, rfl, events ++ released, ?_, ?_, .inl ⟨?_, .inr rfl⟩⟩
    · rw [← List.append_assoc, ← out]
      rfl
    · rw [flushed_append, flushed_direct only, flushed_aside quiet, List.append_nil]
    · rw [taken_append, before, taken_aside quiet, queuedSuffixes_append, queued_direct only, queuedSuffixes_aside quiet,
        List.take_of_length_le (by omega)]
      simp

/-- On a socket that is online. -/
theorem write_poured (fills : Fills kernel) (balanced : Balanced world pending) (online : world.socket.state = .online)
    (object : data.length < 2 ^ 63) {fuel : Nat} {outcome : Except Fault (World × Int)}
    (returned : apeSocketWrite kernel data dataType fuel world = some outcome) :
    ∃ next ret, outcome = .ok (next, ret) ∧ Poured behind data world next pending := by
  have waiting := balanced.waiting
  by_cases none : data = []
  · subst none
    rw [apeSocketWrite, if_pos (.inr rfl)] at returned
    cases returned
    let released := apeSocketReleaseData (.caller world.handed) (if dataType = .copy then .own else dataType)
    have quiet : ∀ event ∈ released, aside event = true := release_aside _ _
    refine ⟨_, -1, rfl, released, rfl, flushed_aside quiet, .inl ⟨?_, .inl (taken_aside quiet)⟩⟩
    rw [taken_aside quiet, queuedSuffixes_aside quiet]
    rfl
  · rw [write_starts online waiting.head none object] at returned
    by_cases waits : world.socket.wouldBlock = true ∨ (world.socket.jobs.node 0).active = true
    · rw [if_pos waits] at returned
      obtain ⟨next, queued, poured⟩ := @poured_queue behind data dataType world pending world [] 0#64 waiting.current
        waiting.takes waiting.holds object (List.length_pos_of_ne_nil none) (by simp) (by simp) rfl (.inl rfl)
      rw [queued] at returned
      cases returned
      exact ⟨next, _, rfl, poured⟩
    · rw [if_neg waits] at returned
      rcases JobFlags.busy waiting.flags waiting.holds with ⟨rfl, -⟩ | ⟨-, active, -⟩
      · have starts : Pouring kernel behind data world { world, rBytes := BitVec.ofNat 64 data.length } :=
          { whole := rfl, socket := rfl, inside := Nat.zero_le _, full := fun some_taken => absurd some_taken (by simp),
            log := ⟨[], by simp, by simp, rfl⟩ }
        exact loop_result (Pouring kernel behind data world)
          (fun outcome => ∃ next ret, outcome = .ok (next, ret) ∧ Poured behind data world next [])
          (fun writing pouring => pouring_turn fills waiting.current waiting.takes waiting.holds online object pouring)
          starts returned
      · -- an active job makes the call wait
        refine absurd (.inr ?_) waits
        rw [PoolNode.active, active]
        decide

theorem write_offline (offline : world.socket.state ≠ .online) (fuel : Nat) :
    apeSocketWrite kernel data dataType fuel world =
      some (.ok (world.emit (apeSocketReleaseData (.caller world.handed) (if dataType = .copy then .own else dataType)),
        -1)) := by
  rw [apeSocketWrite, if_pos (.inl offline)]

end Write

section Jobs

variable {kernel : Kernel} {maxChunks : Nat} {start world : World} {njobsdone : Nat}

def draining : SocketEvent → Bool
  | .write _ _ _ | .queued _ => false
  | _ => true

/-- `ape_socket_do_jobs` neither calls `write` nor queues, and it does not bring a socket online. -/
structure OnlyDrains (start next : World) : Prop where
  out : ∃ events, next.out = start.out ++ events ∧ ∀ event ∈ events, draining event = true
  state : next.socket.state = .online → start.socket.state = .online

theorem OnlyDrains.log (drains : OnlyDrains start world) {next : World} {events : List SocketEvent}
    (out : next.out = world.out ++ events) (only : ∀ event ∈ events, draining event = true)
    (state : next.socket.state = .online → world.socket.state = .online) : OnlyDrains start next := by
  obtain ⟨earlier, before, quiet⟩ := drains.out
  refine { out := ⟨earlier ++ events, ?_, ?_⟩, state := fun online => drains.state (state online) }
  · rw [out, before, List.append_assoc]
  · intro event member
    rcases List.mem_append.mp member with old | new
    · exact quiet event old
    · exact only event new

theorem OnlyDrains.same (drains : OnlyDrains start world) {next : World} (out : next.out = world.out)
    (state : next.socket.state = world.socket.state) : OnlyDrains start next :=
  drains.log (by rw [out, List.append_nil]) (by simp) (by rw [state]; exact id)

theorem aside_draining {events : List SocketEvent} (frees : OnlyFrees events) : ∀ event ∈ events, draining event = true := by
  intro event member
  obtain ⟨pointer, rfl⟩ := frees event member
  rfl

/-- A turn that goes on has only drained, and one that returns a world too. -/
def TurnDrains (start : World) : JobsTurn → Prop
  | .again next => OnlyDrains start next.world
  | .done (.ok (next, _)) => OnlyDrains start next
  | .done (.error _) => True

theorem finishJob_drains (drains : OnlyDrains start world) (job : Nat) : TurnDrains start (finishJob world njobsdone job) := by
  rw [finishJob]
  dsimp only
  split
  · trivial
  · exact drains.same rfl rfl

theorem shutdownNow_drains (drains : OnlyDrains start world) : OnlyDrains start (apeSocketShutdownNow world) := by
  unfold apeSocketShutdownNow
  split
  · exact drains.log rfl (by simp [draining]) nofun
  · exact drains.log rfl (by simp [draining]) nofun
  · exact drains.log rfl (by simp [draining]) nofun
  · exact drains
  · exact drains

theorem jobTurn_drains (drains : OnlyDrains start world) : TurnDrains start (jobTurn maxChunks world njobsdone) := by
  unfold jobTurn
  split
  · exact drains
  · dsimp only
    split_ifs
    · exact drains
    · split
      · trivial
      · trivial
      · exact drains
    · split
      · exact drains
      · trivial
    · split
      · exact drains.log rfl (by simp [draining]) nofun
      · exact drains
    · exact finishJob_drains drains _

theorem afterPackets_drains (drains : OnlyDrains start world) (job : Nat) (plist : PoolList Packet) :
    TurnDrains start (afterPackets maxChunks world njobsdone job plist) := by
  unfold afterPackets
  split
  · trivial
  · split
    · have stored : OnlyDrains start (storeList world job plist) := drains.same rfl rfl
      exact finishJob_drains stored job
    · exact drains

theorem consumeTurn_drains (drains : OnlyDrains start world) (job : Nat) (plist : PoolList Packet) (n : SizeT) :
    TurnDrains start (consumeTurn maxChunks world njobsdone job plist n) := by
  unfold consumeTurn
  split
  · trivial
  · rename_i head _
    have freed : OnlyDrains start (world.emit (apeSocketReleaseData (plist.node head).content.pointer
        (plist.node head).content.dataType)) := drains.log rfl (aside_draining (release_free _ _)) id
    dsimp only
    split
    · exact afterPackets_drains drains job plist
    · split
      · exact afterPackets_drains drains job _
      · split
        · trivial
        · split
          · exact afterPackets_drains freed job _
          · exact freed

theorem rewriteTurn_drains (drains : OnlyDrains start world) (job : Nat) (plist : PoolList Packet) (chunks : List (List Byte)) :
    TurnDrains start (rewriteTurn kernel world njobsdone job plist chunks) := by
  have logged : OnlyDrains start (world.emit [.writev chunks (kernel.reply world.calls chunks.flatten.length)]) :=
    drains.log rfl (by simp [draining]) id
  rw [rewriteTurn]
  dsimp only
  split
  · exact logged.same rfl rfl
  · exact logged.same rfl rfl
  · exact shutdownNow_drains (logged.same rfl rfl)
  · exact logged.same rfl rfl

theorem sendfileTurn_drains (drains : OnlyDrains start world) (job fd : Nat) :
    TurnDrains start (sendfileTurn kernel world njobsdone job fd) := by
  have logged : OnlyDrains start (world.emit [.sendfile fd (kernel.sendfile world.calls)]) :=
    drains.log rfl (by simp [draining]) id
  rw [sendfileTurn]
  dsimp only
  split
  · exact logged.same rfl rfl
  · exact logged.same rfl rfl
  · let called := ({ world with calls := world.calls + 1 }.emit [.sendfile fd (kernel.sendfile world.calls)]).emit
      [.closeFile fd]
    have closed : OnlyDrains start called :=
      @OnlyDrains.log start world drains called [.sendfile fd (kernel.sendfile world.calls), .closeFile fd]
        (List.append_assoc _ _ _) (by simp [draining]) id
    have emptied : OnlyDrains start
        { called with socket := { called.socket with jobs := called.socket.jobs.setContent job .null } } :=
      closed.same rfl rfl
    exact finishJob_drains emptied job

theorem doJobs_drains {fuel : Nat} {next : World} {ret : Int}
    (returned : apeSocketDoJobs kernel maxChunks fuel world = some (.ok (next, ret))) : OnlyDrains world next := by
  have initial : OnlyDrains world world := { out := ⟨[], (List.append_nil _).symm, by simp⟩, state := id }
  have post := @loop_result _ _ (doJobsTurn kernel maxChunks) { world } (fun doing => OnlyDrains world doing.world)
    (fun result => ∀ next ret, result = .ok (next, ret) → OnlyDrains world next) ?_ fuel _ initial returned
  · exact post next ret rfl
  · rintro ⟨current, done, label⟩ drains
    have turn : TurnDrains world (doJobsTurn kernel maxChunks ⟨current, done, label⟩) := by
      cases label with
      | job => exact jobTurn_drains drains
      | rewrite job plist chunks => exact rewriteTurn_drains drains job plist chunks
      | consume job plist n => exact consumeTurn_drains drains job plist n
      | sendfile job fd => exact sendfileTurn_drains drains job fd
    cases outcome : doJobsTurn kernel maxChunks ⟨current, done, label⟩ with
    | again further =>
      rw [outcome] at turn
      exact .inl ⟨further, rfl, turn⟩
    | done result =>
      refine .inr ⟨result, rfl, ?_⟩
      rintro last ret rfl
      rw [outcome] at turn
      exact turn

end Jobs

section Run

variable {kernel : Kernel} {behind : Nat → Byte} {maxChunks fuel : Nat} {world next : World} {asked stream : List Byte}

/-- The kernel has taken the first of what was written, and while the socket is online the rest of it waits. -/
structure Streaming (world : World) (asked stream : List Byte) : Prop where
  inOrder : ∃ pending, Balanced world pending ∧ stream ++ pending.flatten <+: asked ∧
    (world.socket.state = .online → stream ++ pending.flatten = asked)

theorem drained_log {events : List SocketEvent} (only : ∀ event ∈ events, draining event = true) (data : List Byte) :
    taken behind data events = flushed events ∧ queuedSuffixes events = [] := by
  induction events with
  | nil => exact ⟨rfl, rfl⟩
  | cons event events ih =>
    obtain ⟨same, none⟩ := ih fun other member => only other (List.mem_cons_of_mem _ member)
    have here := only event List.mem_cons_self
    cases event with
    | write offset length reply => cases here
    | queued suffix => cases here
    | writev chunks reply =>
      refine ⟨?_, none⟩
      show takenBytes behind data (.writev chunks reply) ++ taken behind data events = _
      rw [same]
      cases reply <;> rfl
    | _ => exact ⟨same, none⟩

theorem streaming_write (fills : Fills kernel) (streaming : Streaming world asked stream) (data : DataObject)
    (dataType : DataAutorelease) {ret : Int}
    (returned : apeSocketWrite kernel data.bytes dataType fuel world = some (.ok (next, ret))) :
    ∃ events, next.out = world.out ++ events ∧
      Streaming next (asked ++ data.bytes) (stream ++ taken behind data.bytes events) := by
  obtain ⟨pending, balanced, part, whole⟩ := streaming.inOrder
  obtain ⟨reached, _, more, same, kept⟩ := balanced_write balanced data.object fuel _ returned
  cases same
  by_cases online : world.socket.state = .online
  · obtain ⟨_, _, same, events, out, quiet, result⟩ :=
      @write_poured kernel behind data.bytes dataType world pending fills balanced online data.object fuel _ returned
    cases same
    refine ⟨events, out, more, kept, ?_⟩
    have log := kept.total
    rw [out, flushed_append, quiet, List.append_nil, queuedSuffixes_append, List.flatten_append, ← balanced.total,
      List.append_assoc, List.append_cancel_left_eq] at log
    have asking := whole online
    rw [log]
    generalize taken behind data.bytes events = own at result ⊢
    rcases result with ⟨all, waits⟩ | ⟨down, none, rfl, some_taken⟩
    · have total : stream ++ own ++ (pending.flatten ++ (queuedSuffixes events).flatten) = asked ++ data.bytes := by
        rw [← asking, ← all]
        rcases waits with rfl | rfl
        · simp only [List.append_nil, List.nil_append, List.append_assoc]
        · simp only [List.flatten_nil, List.append_nil, List.nil_append, List.append_assoc]
      exact ⟨by rw [total], fun _ => total⟩
    · rw [List.flatten_nil, List.append_nil] at asking
      rw [none, List.flatten_nil, List.append_nil, List.append_nil, asking]
      exact ⟨List.prefix_append_right_inj _ |>.mpr some_taken, fun still => absurd still down⟩
  · rw [@write_offline kernel data.bytes dataType world online fuel] at returned
    cases returned
    let released := apeSocketReleaseData (.caller world.handed) (if dataType = .copy then .own else dataType)
    have quiet : ∀ event ∈ released, aside event = true := release_aside _ _
    refine ⟨released, rfl, pending, balanced_release balanced _ _, ?_, fun still => absurd still online⟩
    rw [taken_aside quiet, List.append_nil]
    exact part.trans (List.prefix_append _ _)

theorem streaming_jobs (some_chunks : 0 < maxChunks) (streaming : Streaming world asked stream) {ret : Int}
    (returned : apeSocketDoJobs kernel maxChunks fuel world = some (.ok (next, ret))) :
    ∃ events, next.out = world.out ++ events ∧ Streaming next asked (stream ++ taken behind [] events) := by
  obtain ⟨pending, balanced, part, whole⟩ := streaming.inOrder
  obtain ⟨reached, _, more, same, kept⟩ := balanced_doJobs some_chunks balanced fuel _ returned
  cases same
  obtain ⟨⟨events, out, only⟩, state⟩ := doJobs_drains returned
  obtain ⟨flush, none⟩ := @drained_log behind events only []
  have log := kept.total
  rw [out, flushed_append, queuedSuffixes_append, none, List.append_nil, ← balanced.total, List.append_assoc,
    List.append_cancel_left_eq] at log
  refine ⟨events, out, more, kept, ?_⟩
  rw [flush, List.append_assoc, log]
  exact ⟨part, fun online => whole (state online)⟩

theorem sends_performed {call : SocketCall} {out : List Byte}
    (sent : world.sends kernel behind maxChunks fuel call = .ok (next, out)) :
    world.perform kernel maxChunks fuel call = some (.ok next) ∧
      out = taken behind call.given (next.out.drop world.out.length) := by
  unfold World.sends at sent
  rcases performed : world.perform kernel maxChunks fuel call with _ | _ | reached <;> simp only [performed] at sent
  case some.ok =>
    cases sent
    exact ⟨rfl, rfl⟩
  all_goals cases sent

theorem returned_of_map {result : Option (Except Fault (World × Int))}
    (mapped : result.map (·.map Prod.fst) = some (.ok next)) : ∃ ret, result = some (.ok (next, ret)) := by
  rcases result with _ | _ | ⟨reached, ret⟩
  · cases mapped
  · cases mapped
  · cases mapped
    exact ⟨ret, rfl⟩

theorem streaming_step (fills : Fills kernel) (some_chunks : 0 < maxChunks) (streaming : Streaming world asked stream)
    {call : SocketCall} {out : List Byte} (sent : world.sends kernel behind maxChunks fuel call = .ok (next, out)) :
    Streaming next (asked ++ call.given) (stream ++ out) := by
  obtain ⟨performed, rfl⟩ := sends_performed sent
  cases call with
  | write data dataType =>
    obtain ⟨ret, returned⟩ := returned_of_map performed
    obtain ⟨events, log, after⟩ := @streaming_write kernel behind _ _ _ _ _ fills streaming data dataType _ returned
    rw [log, List.drop_left]
    exact after
  | writable =>
    cases performed
    obtain ⟨pending, balanced, part, whole⟩ := streaming.inOrder
    refine ⟨pending, balanced.log rfl rfl rfl rfl, ?_⟩
    simp only [SocketCall.given, List.drop_length, taken, List.flatMap_nil, List.append_nil]
    exact ⟨part, whole⟩
  | doJobs =>
    obtain ⟨ret, returned⟩ := returned_of_map performed
    obtain ⟨events, log, after⟩ := @streaming_jobs kernel behind _ _ _ _ _ _ some_chunks streaming _ returned
    rw [log, List.drop_left, SocketCall.given, List.append_nil]
    exact after

theorem streaming_run (fills : Fills kernel) (some_chunks : 0 < maxChunks) {calls : List SocketCall}
    (streaming : Streaming world asked stream) {out : List Byte}
    (ran : run (World.sends kernel behind maxChunks fuel) world calls = .ok (next, out)) :
    Streaming next (asked ++ calls.flatMap SocketCall.given) (stream ++ out) := by
  induction calls generalizing world asked stream out with
  | nil =>
    cases ran
    simpa using streaming
  | cons call calls ih =>
    obtain ⟨middle, head, rest, first, others, rfl⟩ := andThen_cases ran
    have later := ih (streaming_step fills some_chunks streaming first) others
    rw [List.append_assoc, List.append_assoc] at later
    exact later

theorem streaming_held (streaming : Streaming world asked stream) :
    stream <+: asked ∧ (world.socket.state = .online → stream ++ heldAt world.socket.jobs 0 = asked) := by
  obtain ⟨pending, balanced, part, whole⟩ := streaming.inOrder
  have held : heldAt world.socket.jobs 0 = pending.flatten := by
    rcases balanced.waiting.holds with ⟨null, none⟩ | ⟨plist, content, packets⟩
    · rw [heldAt, null, none]
      rfl
    · rw [heldAt, content]
      exact held_packets packets
  rw [held]
  exact ⟨(List.prefix_append _ _).trans part, whole⟩

/-- However writes mix with the events of the loop, the kernel takes what is written in its order, nothing twice and nothing
    left out; while the socket is online, what it has not taken waits. -/
theorem stream_in_order (kernel : Kernel) (fills : Fills kernel) (behind : Nat → Byte) {maxChunks : Nat}
    (some_chunks : 0 < maxChunks) (fuel : Nat) (limit total : SizeT) (calls : List SocketCall) (last : World)
    (stream : List Byte)
    (ran : run (World.sends kernel behind maxChunks fuel) (freshSocket limit total) calls = .ok (last, stream)) :
    stream <+: calls.flatMap SocketCall.given ∧
      (last.socket.state = .online → stream ++ heldAt last.socket.jobs 0 = calls.flatMap SocketCall.given) := by
  have fresh : Streaming (freshSocket limit total) [] [] :=
    ⟨[], balanced_fresh limit total, List.prefix_rfl, fun _ => rfl⟩
  exact streaming_held (streaming_run fills some_chunks fresh ran)

end Run

/-- Takes one byte at every other call. -/
def sipping : Kernel where
  reply call offered := if call % 2 = 0 then .accepted (min offered 1) else .again
  honest := by
    intro call offered count accepted
    split at accepted
    · exact honest_bytewise accepted
    · cases accepted

theorem sipping_fills : Fills sipping := by
  intro call offered count accepted _ more taken
  simp only [sipping] at accepted ⊢
  split at accepted
  · rw [if_neg (by omega)]
    simp
  · cases accepted

/-- The first byte goes out at once, and the second one when the socket can be written again. -/
theorem stream_in_order_sipping :
    ∃ last stream, run (World.sends sipping (fun _ => 0#8) 1024 6) (freshSocket 0 0)
        [.write twoBytes .static, .writable, .doJobs] = .ok (last, stream) ∧
      stream <+: twoBytes.bytes ∧ (last.socket.state = .online → stream ++ heldAt last.socket.jobs 0 = twoBytes.bytes) := by
  have ends : (run (World.sends sipping (fun _ => 0#8) 1024 6) (freshSocket 0 0)
      [.write twoBytes .static, .writable, .doJobs]).isOk = true := by decide
  cases ran : run (World.sends sipping (fun _ => 0#8) 1024 6) (freshSocket 0 0)
      [.write twoBytes .static, .writable, .doJobs] with
  | error stop =>
    rw [ran] at ends
    cases ends
  | ok result =>
    have ordered := stream_in_order sipping sipping_fills (fun _ => 0#8) (by decide) 6 0 0 _ result.1 result.2 ran
    exact ⟨_, _, rfl, ordered⟩

end ZapeProof
