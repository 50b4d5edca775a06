import Zape.Ape.Offering
import Zape.Ape.Requests
import Zape.Ape.Buffering

/-! `APE_socket_shutdown` lets the kernel take what was written before it, and nothing that is written later. -/
namespace ZapeModel

open Machine

/-- What a run is made of: calls of the application, and what `APE_loop_run` does with `EVENT_WRITE` before and after
    the socket is read. The calls that `on_read` makes come between the two, those that `on_drain` makes behind them. -/
inductive LoopCall
  | write (data : DataObject) (dataType : DataAutorelease)
  | shutdown
  | writable
  | jobs

def World.performLoop (kernel : Kernel) (maxChunks fuel : Nat) (world : World) : LoopCall → Except Stop World
  | .write data dataType => world.performApi kernel maxChunks fuel (.socket (.write data dataType))
  | .shutdown => world.performApi kernel maxChunks fuel .shutdown
  | .writable => world.performApi kernel maxChunks fuel (.socket .writable)
  | .jobs =>
    if world.socket.state = .online ∧ world.socket.wouldBlock = false then
      world.performApi kernel maxChunks fuel (.socket .doJobs)
    else .ok world

end ZapeModel

namespace ZapeProof

open Machine ZapeModel

/-- No call ended in an error, and no more is queued than the buffer may hold. -/
structure Calm (world : World) : Prop where
  errors : ∀ event ∈ world.out, ioError event = false
  buffer : ¬ Overflows world.socket

/-- All of the data was accepted by `write` or queued. -/
def Accounted (data : List Byte) (old new : World) : Prop :=
  ∃ events, new.out = old.out ++ events ∧ writtenBytes data events ++ (queuedSuffixes events).flatten = data

/-- What may be observed after a shutdown was asked for: the socket is shut down once all that was queued before is
    flushed, and nothing else than that is offered. -/
def Allowed (past earlier : List SocketEvent) : SocketEvent → Prop
  | .shutdown => flushed (past ++ earlier) = (queuedSuffixes past).flatten
  | .writev chunks _ => flushed (past ++ earlier) ++ chunks.flatten <+: (queuedSuffixes past).flatten
  | .write _ _ _ => False
  | _ => True

def Graceful (past events : List SocketEvent) : Prop :=
  ∀ earlier event later, events = earlier ++ event :: later → Allowed past earlier event

/-- A step that leads to such a world, unless it does not end or the world is not calm. -/
def Leads (outcome : Except Stop World) (property : World → Prop) : Prop :=
  outcome = .error .endless ∨ ∃ next, outcome = .ok next ∧ (Calm next → property next)

section Logs

variable {past events : List SocketEvent}

theorem graceful_nil (past : List SocketEvent) : Graceful past [] := by
  intro earlier event later split
  exact absurd split.symm (by simp)

theorem graceful_snoc (graceful : Graceful past events) {event : SocketEvent} (allowed : Allowed past events event) :
    Graceful past (events ++ [event]) := by
  intro earlier other later split
  rcases List.eq_nil_or_concat later with rfl | ⟨front, last, rfl⟩
  · obtain ⟨same, here⟩ := List.append_inj' split rfl
    cases here
    rw [← same]
    exact allowed
  · rw [List.concat_eq_append, ← List.cons_append, ← List.append_assoc] at split
    exact graceful earlier other front (List.append_inj' split rfl).1

def memoryOnly : SocketEvent → Bool
  | .queued _ | .free _ => true
  | _ => false

theorem graceful_memory (graceful : Graceful past events) {more : List SocketEvent}
    (only : ∀ event ∈ more, memoryOnly event = true) : Graceful past (events ++ more) := by
  induction more using List.reverseRecOn with
  | nil =>
    rw [List.append_nil]
    exact graceful
  | append_singleton more event ih =>
    rw [← List.append_assoc]
    apply graceful_snoc (ih fun other member => only other (List.mem_append_left _ member))
    have this := only event (by simp)
    cases event with
    | queued _ => trivial
    | free => trivial
    | _ => cases this

theorem free_memory {freed : List SocketEvent} (frees : OnlyFrees freed) : ∀ event ∈ freed, memoryOnly event = true := by
  intro event member
  obtain ⟨pointer, rfl⟩ := frees event member
  rfl

/-- `write` is called, or memory is released. -/
def direct : SocketEvent → Bool
  | .write _ _ _ | .free _ => true
  | _ => false

theorem free_direct {freed : List SocketEvent} (frees : OnlyFrees freed) : ∀ event ∈ freed, direct event = true := by
  intro event member
  obtain ⟨pointer, rfl⟩ := frees event member
  rfl

theorem flushed_direct (only : ∀ event ∈ events, direct event = true) : flushed events = [] := by
  unfold flushed
  rw [List.flatMap_eq_nil_iff]
  intro event member
  have this := only event member
  cases event <;> first | rfl | cases this

theorem queued_direct (only : ∀ event ∈ events, direct event = true) : queuedSuffixes events = [] := by
  unfold queuedSuffixes
  rw [List.filterMap_eq_nil_iff]
  intro event member
  have this := only event member
  cases event <;> first | rfl | cases this

end Logs

section Write

variable {kernel : Kernel} {data : List Byte} {dataType : DataAutorelease} {world : World} {pending : List (List Byte)}

/-- The loop around `write`: what is done was accepted, and the socket is as it was. -/
structure Progress (start : World) (data : List Byte) (writing : Writing) : Prop where
  whole : writing.rBytes = BitVec.ofNat 64 data.length
  socket : writing.world.socket = start.socket
  log : ∃ events, writing.world.out = start.out ++ events ∧ (∀ event ∈ events, direct event = true) ∧
    writtenBytes data events = data.take writing.tBytes.toNat

/-- What is not accepted by `write` goes into the only job. -/
def Stores (start : World) (data : List Byte) (pending : List (List Byte)) (next : World) : Prop :=
  ∃ called events suffix plist total wouldBlock, called.out = start.out ++ events ∧
    called.socket = { start.socket with wouldBlock } ∧ (∀ event ∈ events, direct event = true) ∧
    writtenBytes data events ++ suffix = data ∧ suffix ≠ [] ∧ Packets plist (pending ++ [suffix]) ∧
    next = if Overflows (stored called 0 plist suffix total).socket then
      apeSocketShutdownNow (stored called 0 plist suffix total) else stored called 0 plist suffix total

/-- What a call of `APE_socket_write` comes to, with one job at most. -/
def Wrote (start : World) (data : List Byte) (pending : List (List Byte)) (next : World) : Prop :=
  (∃ event ∈ next.out, ioError event = true) ∨
    (∃ events, next.out = start.out ++ events ∧ next.socket = start.socket ∧ (∀ event ∈ events, direct event = true) ∧
      writtenBytes data events = data) ∨
    Stores start data pending next

theorem direct_written {events : List SocketEvent} (released : List SocketEvent)
    (frees : OnlyFrees released) : writtenBytes data (events ++ released) = writtenBytes data events := by
  have only : ∀ event ∈ released, aside event = true := frees_aside frees
  rw [writtenBytes_append, written_aside only, List.append_nil]

theorem stores_queue {start called : World} {events : List SocketEvent} {offset : SizeT} {wouldBlock : Bool}
    (current : start.socket.jobs.current = some 0) (takes : TakesData (start.socket.jobs.node 0).flags)
    (holds : JobHolds (start.socket.jobs.node 0).content pending) (object : data.length < 2 ^ 63)
    (inside : offset.toNat < data.length) (out : called.out = start.out ++ events)
    (socket : called.socket = { start.socket with wouldBlock }) (only : ∀ event ∈ events, direct event = true)
    (written : writtenBytes data events = data.take offset.toNat) :
    ∃ next, apeSocketQueueData called data offset dataType = .ok next ∧ Stores start data pending next := by
  have jobs : called.socket.jobs = start.socket.jobs := by rw [socket]
  rw [← jobs] at current takes holds
  obtain ⟨plist, total, packets, queued⟩ := queueData_result current takes holds object inside dataType
  refine ⟨_, queued, called, events, data.drop offset.toNat, plist, total, wouldBlock, out, socket, only, ?_, ?_, packets,
    rfl⟩
  · rw [written, List.take_append_drop]
  · intro none
    have length := congrArg List.length none
    rw [List.length_drop, List.length_nil] at length
    omega

theorem progress_turn (current : world.socket.jobs.current = some 0) (takes : TakesData (world.socket.jobs.node 0).flags)
    (holds : JobHolds (world.socket.jobs.node 0).content pending) (object : data.length < 2 ^ 63) {writing : Writing}
    (progress : Progress world data writing) :
    (∃ next, writeTurn kernel data dataType writing = .again next ∧ Progress world data next) ∨
      ∃ result, writeTurn kernel data dataType writing = .done result ∧
        ∃ next ret, result = .ok (next, ret) ∧ Wrote world data pending next := by
  obtain ⟨events, out, only, written⟩ := progress.log
  by_cases within : writing.tBytes.toNat < data.length
  · have turn := @turn_within kernel data dataType writing object within progress.whole
    let reply := kernel.reply writing.world.calls data.length
    let event := SocketEvent.write writing.tBytes.toNat data.length reply
    let called := wrote kernel writing.world writing.tBytes.toNat data.length
    have logged : called.out = world.out ++ (events ++ [event]) := by
      rw [← List.append_assoc, ← out]
      rfl
    have still : ∀ other ∈ events ++ [event], direct other = true := by
      intro other member
      rcases List.mem_append.mp member with old | new
      · exact only other old
      · rw [List.mem_singleton.mp new]
        rfl
    have failed : ∀ failure, reply = failure → (failure = .interrupted ∨ failure = .failed) →
        Wrote world data pending (writeReturn dataType called true).1 := by
      intro failure answer error
      obtain ⟨more, returned⟩ := @writeReturn_out dataType called true
      refine .inl ⟨event, ?_, ?_⟩
      · rw [returned, logged]
        simp
      · rcases error with rfl | rfl <;> simp only [event, answer, ioError]
    dsimp only at turn
    cases answer : reply with
    | accepted count =>
      simp only [show kernel.reply writing.world.calls data.length = _ from answer] at turn
      obtain ⟨-, short, -⟩ := kernel.honest _ _ _ answer
      have moved : (writing.tBytes + BitVec.ofNat 64 count).toNat = writing.tBytes.toNat + count := by
        rw [BitVec.toNat_add, toNat_ofNat_size short]
        omega
      refine .inl ⟨_, turn, { whole := progress.whole, socket := progress.socket, log := ⟨_, logged, still, ?_⟩ }⟩
      show writtenBytes data (events ++ [event]) = data.take (writing.tBytes + BitVec.ofNat 64 count).toNat
      rw [writtenBytes_append, written, moved, List.take_add]
      congr 1
      simp [writtenBytes, event, answer]
    | again =>
      simp only [show kernel.reply writing.world.calls data.length = _ from answer] at turn
      have same : writtenBytes data (events ++ [event]) = data.take writing.tBytes.toNat := by
        rw [writtenBytes_append, written]
        simp [writtenBytes, event, answer]
      have socket : { called.socket with wouldBlock := true } = { world.socket with wouldBlock := true } := by
        rw [show called.socket = world.socket from progress.socket]
      obtain ⟨next, queued, stores⟩ :=
        @stores_queue data dataType pending world { called with socket := { called.socket with wouldBlock := true } }
          _ _ true current takes holds object within logged socket still same
      rw [queued] at turn
      exact .inr ⟨_, turn, next, _, rfl, .inr (.inr stores)⟩
    | interrupted =>
      simp only [show kernel.reply writing.world.calls data.length = _ from answer] at turn
      exact .inr ⟨_, turn, _, _, rfl, failed _ answer (.inl rfl)⟩
    | failed =>
      simp only [show kernel.reply writing.world.calls data.length = _ from answer] at turn
      exact .inr ⟨_, turn, _, _, rfl, failed _ answer (.inr rfl)⟩
  · have turn := @turn_beyond kernel data dataType writing object (by omega)
    let released := apeSocketReleaseData (.caller writing.world.handed) (if dataType = .copy then .own else dataType)
    have frees : OnlyFrees released := release_free _ _
    refine .inr ⟨_, turn, _, 0, rfl, .inr (.inl ⟨events ++ released, ?_, progress.socket, ?_, ?_⟩)⟩
    · rw [← List.append_assoc, ← out]
      rfl
    · intro event member
      rcases List.mem_append.mp member with old | new
      · exact only event old
      · exact free_direct frees event new
    · rw [direct_written released frees, written, List.take_of_length_le (by omega)]

theorem write_wrote (online : world.socket.state = .online) (head : world.socket.jobs.head = some 0)
    (current : world.socket.jobs.current = some 0) (takes : TakesData (world.socket.jobs.node 0).flags)
    (holds : JobHolds (world.socket.jobs.node 0).content pending) (object : data.length < 2 ^ 63) (fuel : Nat)
    (outcome : Except Fault (World × Int)) (returned : apeSocketWrite kernel data dataType fuel world = some outcome) :
    ∃ next ret, outcome = .ok (next, ret) ∧ Wrote world data pending next := by
  by_cases none : data = []
  · subst none
    rw [apeSocketWrite, if_pos (.inr rfl)] at returned
    cases returned
    have frees := release_free (.caller world.handed) (if dataType = .copy then .own else dataType)
    refine ⟨_, -1, rfl, .inr (.inl ⟨_, rfl, rfl, free_direct frees, ?_⟩)⟩
    exact @direct_written [] [] _ frees
  · rw [write_starts online head none object] at returned
    by_cases waits : world.socket.wouldBlock = true ∨ (world.socket.jobs.node 0).active = true
    · rw [if_pos waits] at returned
      obtain ⟨next, queued, stores⟩ :=
        @stores_queue data dataType pending world world [] 0#64 world.socket.wouldBlock current takes holds object
          (List.length_pos_of_ne_nil none) (by simp) rfl (by simp) rfl
      rw [queued] at returned
      cases returned
      exact ⟨next, _, rfl, .inr (.inr stores)⟩
    · rw [if_neg waits] at returned
      have starts : Progress world data { world, rBytes := BitVec.ofNat 64 data.length } :=
        { whole := rfl, socket := rfl, log := ⟨[], by simp, by simp, rfl⟩ }
      exact loop_result (Progress world data)
        (fun outcome => ∃ next ret, outcome = .ok (next, ret) ∧ Wrote world data pending next)
        (fun writing progress => progress_turn current takes holds object progress) starts returned

end Write

end ZapeProof
