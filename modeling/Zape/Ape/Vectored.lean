import Zape.Ape.Blocking
import Zape.Ape.Duties

/-! `APE_socket_writev`, beside `APE_socket_write` of the same bytes in one piece. -/
namespace ZapeModel

open Machine

/-- `APE_socket_writev` on a plain socket. -/
def apeSocketWritev (kernel : Kernel) (iov : List (List Byte)) (world : World) : Except Fault (World × Int) :=
  if world.socket.state ≠ .online ∨ iov.length = 0 then .ok (world, -1)
  else
    match world.socket.jobs.head with
    | none => .error .nullDereference
    | some head =>
      if world.socket.wouldBlock ∨ (world.socket.jobs.node head).active then .ok (world, 1)
      else
        let reply := kernel.reply world.calls iov.flatten.length
        let called := { world with calls := world.calls + 1 }.emit [.writev iov reply]
        match reply with
        | .accepted _ => .ok (called, 0)
        | .again | .interrupted | .failed => .ok (apeSocketShutdownNow called, -1)

end ZapeModel

namespace ZapeProof

open Machine ZapeModel

/-- The bytes that wait on a socket to be sent. -/
def queuedBytes (jobs : PoolList Job) : List Byte :=
  (queuedPackets jobs).flatMap fun packet => packet.rest (packet.data.getD [])

/-- A call that is given these bytes and does not fail passes all of them on: those that the kernel does not accept wait
    behind all that did before. That it would block is no reason to shut the connection down. -/
structure PassesOn (data : List Byte) (before : World) (events : List SocketEvent) (after : World) (ret : Int) : Prop where
  bytes : 0 ≤ ret → ∃ waiting, queuedBytes after.socket.jobs = queuedBytes before.socket.jobs ++ waiting ∧
    writtenBytes data events ++ flushed events ++ waiting = data
  stays : (∃ event ∈ events, refuses event = true) → after.socket.state = before.socket.state

/-- No job is waiting, and the kernel accepts all bytes at once or fails. -/
def TakenAtOnce (kernel : Kernel) (iov : List (List Byte)) (world : World) : Prop :=
  world.socket.wouldBlock = false ∧ headActive world.socket = false ∧
    (kernel.reply world.calls iov.flatten.length = .accepted iov.flatten.length ∨
      kernel.reply world.calls iov.flatten.length = .interrupted ∨ kernel.reply world.calls iov.flatten.length = .failed)

section Writev

variable {kernel : Kernel} {iov : List (List Byte)} {world next : World} {ret : Int}

theorem writev_cases (returned : apeSocketWritev kernel iov world = .ok (next, ret)) :
    ((world.socket.state ≠ .online ∨ iov = []) ∧ next = world ∧ ret = -1) ∨
      world.socket.state = .online ∧ iov ≠ [] ∧
        ((world.socket.wouldBlock = true ∨ headActive world.socket = true) ∧ next = world ∧ ret = 1 ∨
          world.socket.wouldBlock = false ∧ headActive world.socket = false ∧
            ∃ called, called = { world with calls := world.calls + 1 }.emit
                [.writev iov (kernel.reply world.calls iov.flatten.length)] ∧
              ((∃ count, kernel.reply world.calls iov.flatten.length = .accepted count) ∧ next = called ∧ ret = 0 ∨
                (∀ count, kernel.reply world.calls iov.flatten.length ≠ .accepted count) ∧
                  next = apeSocketShutdownNow called ∧ ret = -1)) := by
  by_cases refused : world.socket.state ≠ .online ∨ iov.length = 0
  · rw [apeSocketWritev, if_pos refused] at returned
    cases returned
    exact .inl ⟨refused.imp id List.eq_nil_of_length_eq_zero, rfl, rfl⟩
  · rw [apeSocketWritev, if_neg refused] at returned
    obtain ⟨online, some_parts⟩ := not_or.mp refused
    refine .inr ⟨not_not.mp online, fun empty => some_parts (by rw [empty]; rfl), ?_⟩
    cases head : world.socket.jobs.head with
    | none =>
      simp only [head] at returned
      cases returned
    | some slot =>
      simp only [head] at returned
      have active : headActive world.socket = (world.socket.jobs.node slot).active := by simp only [headActive, head]
      rw [active]
      split at returned
      · rename_i held
        cases returned
        exact .inl ⟨held, rfl, rfl⟩
      · rename_i free
        obtain ⟨unblocked, inactive⟩ := not_or.mp free
        refine .inr ⟨by simpa using unblocked, by simpa using inactive, _, rfl, ?_⟩
        cases reply : kernel.reply world.calls iov.flatten.length with
        | accepted count =>
          simp only [reply] at returned
          cases returned
          exact .inl ⟨⟨count, rfl⟩, rfl, rfl⟩
        | again | interrupted | failed =>
          simp only [reply] at returned
          cases returned
          exact .inr ⟨by simp, rfl, rfl⟩

/-- Nothing is queued by the call. -/
theorem passes_unqueued {data : List Byte} {events : List SocketEvent} {after : World}
    (jobs : after.socket.jobs = world.socket.jobs) :
    PassesOn data world events after ret ↔ (0 ≤ ret → writtenBytes data events ++ flushed events = data) ∧
      ((∃ event ∈ events, refuses event = true) → after.socket.state = world.socket.state) := by
  constructor
  · rintro ⟨bytes, stays⟩
    refine ⟨fun succeeds => ?_, stays⟩
    obtain ⟨waiting, same, all⟩ := bytes succeeds
    rw [jobs] at same
    rw [List.self_eq_append_right.mp same, List.append_nil] at all
    exact all
  · rintro ⟨bytes, stays⟩
    refine ⟨fun succeeds => ⟨[], ?_, ?_⟩, stays⟩
    · rw [jobs, List.append_nil]
    · rw [List.append_nil]
      exact bytes succeeds

theorem flatten_some (parts : ∀ part ∈ iov, part ≠ []) (some_parts : iov ≠ []) : iov.flatten ≠ [] := by
  obtain ⟨part, rest, rfl⟩ := List.exists_cons_of_ne_nil some_parts
  rw [List.flatten_cons]
  exact List.append_ne_nil_of_left_ne_nil (parts part (by simp)) _

/-- The bytes are passed on exactly if the call refuses them all, or if the kernel leaves none of them. -/
theorem writev_passes_on_iff (kernel : Kernel) (iov : List (List Byte)) (parts : ∀ part ∈ iov, part ≠ []) (world next : World)
    (ret : Int) (returned : apeSocketWritev kernel iov world = .ok (next, ret)) :
    ∃ events, next.out = world.out ++ events ∧
      (PassesOn iov.flatten world events next ret ↔
        world.socket.state ≠ .online ∨ iov = [] ∨ TakenAtOnce kernel iov world) := by
  rcases writev_cases returned with ⟨refused, rfl, rfl⟩ | ⟨online, some_parts, outcome⟩
  · refine ⟨[], (List.append_nil _).symm, iff_of_true ((passes_unqueued rfl).mpr ⟨?_, fun _ => rfl⟩) ?_⟩
    · exact fun succeeds => absurd succeeds (by decide)
    · exact refused.imp id .inl
  have only : (world.socket.state ≠ .online ∨ iov = [] ∨ TakenAtOnce kernel iov world) ↔ TakenAtOnce kernel iov world := by
    simp [online, some_parts]
  rw [only]
  rcases outcome with ⟨held, rfl, rfl⟩ | ⟨unblocked, free, called, rfl, ⟨⟨count, reply⟩, rfl, rfl⟩ | ⟨refused, rfl, rfl⟩⟩
  · refine ⟨[], (List.append_nil _).symm, iff_of_false ?_ ?_⟩
    · rw [passes_unqueued rfl]
      rintro ⟨bytes, -⟩
      exact flatten_some parts some_parts (bytes (by decide)).symm
    · rintro ⟨unblocked, free, -⟩
      rcases held with blocked | active
      · cases unblocked.symm.trans blocked
      · cases free.symm.trans active
  · refine ⟨[.writev iov (.accepted count)], by rw [← reply]; rfl, ?_⟩
    obtain ⟨inside, -⟩ := kernel.honest _ _ _ reply
    have accepted : writtenBytes iov.flatten [.writev iov (.accepted count)] ++ flushed [.writev iov (.accepted count)] =
        iov.flatten.take count := List.append_nil _
    rw [passes_unqueued (show ({ world with calls := world.calls + 1 }.emit _).socket.jobs = _ from rfl), accepted,
      List.take_eq_self_iff]
    constructor
    · rintro ⟨all, -⟩
      exact ⟨unblocked, free, .inl (by rw [reply, Nat.le_antisymm inside (all (Int.le_refl 0))])⟩
    · rintro ⟨-, -, same | other | other⟩
      · rw [reply] at same
        cases same
        exact ⟨fun _ => Nat.le_refl _, fun _ => rfl⟩
      · cases reply.symm.trans other
      · cases reply.symm.trans other
  · let answer := kernel.reply world.calls iov.flatten.length
    let called := { world with calls := world.calls + 1 }.emit [.writev iov answer]
    have shut := @shutdownNow_online called online
    rw [show apeSocketShutdownNow _ = _ from shut]
    refine ⟨[.writev iov answer, .shutdown], List.append_assoc _ _ _, ?_⟩
    rw [passes_unqueued (by rfl)]
    cases reply : answer with
    | accepted count => exact absurd reply (refused count)
    | again =>
      refine iff_of_false (fun passes => ?_) ?_
      · have stays := passes.2 ⟨.writev iov .again, by simp, rfl⟩
        rw [online] at stays
        cases stays
      · rintro ⟨-, -, same | other | other⟩
        · cases same.symm.trans reply
        · cases other.symm.trans reply
        · cases other.symm.trans reply
    | interrupted | failed =>
      refine iff_of_true ⟨fun succeeds => absurd succeeds (by decide), ?_⟩
        ⟨unblocked, free, by rw [show kernel.reply _ _ = _ from reply]; simp⟩
      rintro ⟨event, member, refusal⟩
      simp only [List.mem_cons, List.not_mem_nil, or_false] at member
      rcases member with rfl | rfl
      · cases refusal
      · cases refusal

end Writev

section Write

variable {kernel : Kernel} {data : List Byte} {dataType : DataAutorelease} {world next : World} {ret : Int}
  {used : List (Nat × Duty)} {unused : List Nat}

theorem queuedBytes_staffed {jobs : PoolList Job} (staffed : Staffed jobs used unused) :
    queuedBytes jobs = (stockpile used).flatMap fun packet => packet.rest (packet.data.getD []) := by
  rw [queuedBytes, staffed_packets staffed]

theorem queue_waits (staffed : Staffed world.socket.jobs used unused) (some_data : data ≠ []) (object : data.length < 2 ^ 63)
    (unlimited : world.socket.maxBufferMemoryMb = 0#64) (dataType : DataAutorelease) :
    ∃ next, apeSocketQueueData world data 0#64 dataType = .ok next ∧ next.out = world.out ++ [.queued data] ∧
      queuedBytes next.socket.jobs = queuedBytes world.socket.jobs ++ data ∧ next.socket.state = world.socket.state := by
  obtain ⟨jobs, front, slot, stock, pending, left, taken, holds, extend, stored⟩ := staffed_takeData staffed
  have inside : (0#64 : SizeT).toNat < data.length := List.length_pos_of_ne_nil some_data
  obtain ⟨plist, stocked, queued⟩ := queueData_stocked taken holds object inside dataType
  have whole : data.drop (0#64 : SizeT).toNat = data := List.drop_zero
  rw [whole] at queued stocked
  let next := queuedIn world jobs slot plist data (world.totalMemoryBuffered + BitVec.ofNat 64 data.length)
  have fits : ¬ Overflows next.socket := fun overflows => overflows.1 unlimited
  refine ⟨next, queued.trans (congrArg Except.ok (if_neg fits)), rfl, ?_, rfl⟩
  let packet := handedPacket world data 0#64 dataType
  have carries : Carries packet data data :=
    { stored := rfl, object, len := rfl, inside, unsent := List.drop_zero.symm }
  have filled : Staffed next.socket.jobs (front ++ [(slot, .data (stock ++ [packet]))]) left :=
    stored plist _ _ stocked (by simp)
  rw [queuedBytes_staffed filled, queuedBytes_staffed staffed, extend.stockpile, List.flatMap_append, List.flatMap_singleton,
    show packet.data.getD [] = data from rfl, carries.rest]

/-- Where `APE_socket_writev` drops bytes that have to wait or shuts the connection down, `APE_socket_write` of these bytes
    passes them on. -/
theorem write_passes_on (staffed : Staffed world.socket.jobs used unused) (online : world.socket.state = .online)
    (some_data : data ≠ []) (object : data.length < 2 ^ 63) (unlimited : world.socket.maxBufferMemoryMb = 0#64)
    (waits : world.socket.wouldBlock = true ∨ headActive world.socket = true ∨
      kernel.reply world.calls data.length = .again) {fuel : Nat}
    (returned : apeSocketWrite kernel data dataType fuel world = some (.ok (next, ret))) :
    ∃ events, next.out = world.out ++ events ∧ PassesOn data world events next ret := by
  obtain ⟨slot, duty, rest, rfl⟩ := staffed.first
  have active : headActive world.socket = (world.socket.jobs.node slot).active := by simp only [headActive, staffed.head]
  rw [write_starts online staffed.head some_data object] at returned
  by_cases held : world.socket.wouldBlock = true ∨ (world.socket.jobs.node slot).active = true
  · obtain ⟨queued, queueing, out, bytes, state⟩ := queue_waits staffed some_data object unlimited dataType
    rw [if_pos held, queueing] at returned
    cases returned
    exact ⟨[.queued data], out, { bytes := fun _ => ⟨data, bytes, rfl⟩, stays := fun _ => state }⟩
  · have again : kernel.reply world.calls data.length = .again := by
      rw [active] at waits
      exact waits.elim (fun blocked => absurd (.inl blocked) held) (·.resolve_left fun busy => held (.inr busy))
    have turn := @turn_within kernel data dataType { world, rBytes := BitVec.ofNat 64 data.length } object
      (List.length_pos_of_ne_nil some_data) rfl
    simp only [again] at turn
    let called := wrote kernel world 0 data.length
    let blocked : World := { called with socket := { called.socket with wouldBlock := true } }
    obtain ⟨queued, queueing, out, bytes, state⟩ := @queue_waits data blocked _ _ staffed some_data object unlimited dataType
    rw [if_neg held] at returned
    cases fuel with
    | zero => cases returned
    | succ fuel =>
      rw [loop_done turn] at returned
      have result : (Except.ok queued : Except Fault World).map (fun next => (next, intOfSize (BitVec.ofNat 64 data.length))) =
          .ok (next, ret) := by
        rw [← queueing]
        exact Option.some.inj returned
      cases result
      refine ⟨[.write 0 data.length .again, .queued data], ?_,
        { bytes := fun _ => ⟨data, bytes, rfl⟩, stays := fun _ => state }⟩
      rw [out]
      show world.out ++ [.write 0 data.length (kernel.reply world.calls data.length)] ++ [.queued data] = _
      rw [again, List.append_assoc]
      rfl

end Write

/-- Two parts of one byte each. -/
def twoParts : List (List Byte) := [[1#8], [2#8]]

/-- The kernel accepts the first byte only, or it would block. -/
theorem parts_dropped :
    (∃ next events, apeSocketWritev miserly twoParts {} = .ok (next, 0) ∧ next.out = ({} : World).out ++ events ∧
        ¬ PassesOn twoParts.flatten {} events next 0) ∧
      ∃ next events, apeSocketWritev hesitant twoParts {} = .ok (next, -1) ∧ next.out = ({} : World).out ++ events ∧
        next.socket.state = .shutdown ∧ ¬ PassesOn twoParts.flatten {} events next (-1) := by
  refine ⟨⟨_, _, rfl, rfl, fun passes => ?_⟩, _, _, rfl, rfl, rfl, fun passes => ?_⟩
  · obtain ⟨all, -⟩ := (passes_unqueued (by rfl)).mp passes
    exact absurd (all (Int.le_refl 0)) (by decide)
  · have stays := passes.stays ⟨.writev twoParts .again, by decide, rfl⟩
    cases stays

theorem twoParts_passed_on :
    ∃ next events, apeSocketWritev generous twoParts {} = .ok (next, 0) ∧ next.out = ({} : World).out ++ events ∧
      PassesOn twoParts.flatten {} events next 0 := by
  obtain ⟨next, returned⟩ : ∃ next, apeSocketWritev generous twoParts {} = .ok (next, 0) := ⟨_, rfl⟩
  obtain ⟨events, out, passes⟩ := writev_passes_on_iff generous twoParts (by decide) {} next 0 returned
  exact ⟨next, events, returned, out, passes.mpr (.inr (.inr ⟨rfl, rfl, .inl (by decide)⟩))⟩

end ZapeProof
