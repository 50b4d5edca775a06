import Zape.Ape.Duties
import Mathlib.Logic.Relation

/-! What the calls on a socket that sends no files do to the list of its duties. -/
namespace ZapeModel

open Machine

/-- A call on a socket that sends no files; `shutdownNow` is `APE_socket_shutdown_now`. -/
inductive BufferCall
  | loop (call : LoopCall)
  | shutdownNow

/-- Every call of `APE_socket_write` is given another buffer. -/
def World.performBuffer (kernel : Kernel) (maxChunks fuel : Nat) (world : World) : BufferCall → Except Stop World
  | .loop (.write data dataType) =>
    (world.performLoop kernel maxChunks fuel (.write data dataType)).map fun next => { next with handed := next.handed + 1 }
  | .loop call => world.performLoop kernel maxChunks fuel call
  | .shutdownNow => .ok (apeSocketShutdownNow world)

def BufferCall.lifetime : BufferCall → Option DataAutorelease
  | .loop (.write _ dataType) => some dataType
  | _ => none

/-- How the buffers that were written are to be treated, in the order in which they were. -/
def lifetimes (calls : List BufferCall) : List DataAutorelease := calls.filterMap BufferCall.lifetime

end ZapeModel

namespace ZapeProof

open Machine ZapeModel Relation

/-- The job list as a list of duties, and what has been observed so far. -/
structure Desk where
  out : List SocketEvent
  used : List (Nat × Duty)

/-- Neither data that are queued nor memory that is released. -/
def plain : SocketEvent → Bool
  | .queued _ | .free _ => false
  | .write _ _ _ | .writev _ _ | .sendfile _ _ | .sslWrite _ _ | .closeFile _ | .shutdown | .destroy => true

/-- What happens to the duties while the first of them is worked on. -/
inductive Chore : Desk → Desk → Prop
  | log {out used} (events : List SocketEvent) (quiet : ∀ event ∈ events, plain event = true) :
      Chore ⟨out, used⟩ ⟨out ++ events, used⟩
  | consume {out job rest stock more freed} (consumed : Consumed stock more freed) :
      Chore ⟨out, (job, .data stock) :: rest⟩ ⟨out ++ freed, (job, .data more) :: rest⟩
  | finish {out job rest} : Chore ⟨out, (job, .data []) :: rest⟩ ⟨out, rest ++ [(job, .idle true)]⟩

abbrev Chores : Desk → Desk → Prop := ReflTransGen Chore

/-- The buffer of a call of `APE_socket_write` is given back, or a packet for it goes behind all others. -/
inductive Lends (write : Nat) (dataType : DataAutorelease) : Desk → Desk → Prop
  | returned {out used} : Lends write dataType ⟨out, used⟩
      ⟨out ++ apeSocketReleaseData (.caller write) (if dataType = .copy then .own else dataType), used⟩
  | queued {out used front slot stock suffix} {packet : Packet} (extend : Extends used front slot stock)
      (pointer : packet.pointer = if dataType = .static ∨ dataType = .copy then .copy write else .caller write)
      (lifetime : packet.dataType = if dataType = .static then .copy else dataType) :
      Lends write dataType ⟨out, used⟩ ⟨out ++ [.queued suffix], front ++ [(slot, .data (stock ++ [packet]))]⟩

/-- What one call does. -/
inductive Deals (write : Nat) : BufferCall → Desk → Desk → Prop
  | chores {call start last} (only : call.lifetime = none) (chores : Chores start last) : Deals write call start last
  | asks {out used slot} : Deals write (.loop .shutdown) ⟨out, used⟩ ⟨out, used ++ [(slot, .shutdown)]⟩
  | lends {data dataType start first second last} (before : Chores start first) (lent : Lends write dataType first second)
      (after : Chores second last) : Deals write (.loop (.write data dataType)) start last

/-- Between two calls: the jobs serve their duties, and an online socket is not held up for nothing. -/
structure Tidy (world : World) (used : List (Nat × Duty)) (unused : List Nat) : Prop where
  staffed : Staffed world.socket.jobs used unused
  regular : world.socket.state = .online → Resting used ∧ world.socket.wouldBlock = false ∨ Busy used

/-- A socket on which nothing was written yet. -/
def plainSocket (state : SocketState) (maxBufferMemoryMb totalMemoryBuffered : SizeT) : World :=
  { socket := { state, maxBufferMemoryMb }, totalMemoryBuffered }

theorem tidy_plain (state : SocketState) (maxBufferMemoryMb totalMemoryBuffered : SizeT) :
    Tidy (plainSocket state maxBufferMemoryMb totalMemoryBuffered) [(0, .idle false)] [1] where
  staffed := staffed_init
  regular _ := .inl ⟨⟨0, false, rfl⟩, rfl⟩

section Write

variable {kernel : Kernel} {data : List Byte} {dataType : DataAutorelease} {world : World} {start : Desk}
  {used : List (Nat × Duty)} {unused : List Nat}

theorem Chore.chores {first last : Desk} (chore : Chore first last) : Chores first last := .single chore

theorem chores_event {out : List SocketEvent} (chores : Chores start ⟨out, used⟩) {event : SocketEvent}
    (quiet : plain event = true) : Chores start ⟨out ++ [event], used⟩ :=
  chores.tail (.log [event] (by simpa using quiet))

theorem plain_queued {events : List SocketEvent} (quiet : ∀ event ∈ events, plain event = true) :
    queuedSuffixes events = [] := by
  rw [queuedSuffixes, List.filterMap_eq_nil_iff]
  intro event member
  have this := quiet event member
  cases event <;> first | rfl | cases this

theorem chores_queued {first second : Desk} (chores : Chores first second) :
    queuedSuffixes second.out = queuedSuffixes first.out := by
  induction chores with
  | refl => rfl
  | tail _ chore kept =>
    rw [← kept]
    cases chore with
    | log events quiet => rw [queuedSuffixes_append, plain_queued quiet, List.append_nil]
    | consume consumed => rw [queuedSuffixes_append, queuedSuffixes_aside (frees_aside consumed.frees), List.append_nil]
    | finish => rfl

theorem shutdownNow_chores (world : World) (used : List (Nat × Duty)) :
    ∃ state events, apeSocketShutdownNow world =
        { world with socket := { world.socket with state }, out := world.out ++ events } ∧
      Chores ⟨world.out, used⟩ ⟨world.out ++ events, used⟩ ∧ state ≠ .online := by
  unfold apeSocketShutdownNow
  cases state : world.socket.state with
  | online => exact ⟨.shutdown, [.shutdown], rfl, chores_event .refl rfl, by decide⟩
  | progress | pending => exact ⟨.offline, [.destroy], rfl, chores_event .refl rfl, by decide⟩
  | offline | shutdown => exact ⟨world.socket.state, [], by simp, by rw [List.append_nil], by simp [state]⟩

theorem Tidy.shutdownNow (tidy : Tidy world used unused) : Tidy (apeSocketShutdownNow world) used unused := by
  obtain ⟨state, events, shut, -, offline⟩ := shutdownNow_chores world used
  rw [shut]
  exact { staffed := tidy.staffed, regular := fun online => absurd online offline }

theorem shutdownNow_out (world : World) (used : List (Nat × Duty)) :
    Chores ⟨world.out, used⟩ ⟨(apeSocketShutdownNow world).out, used⟩ := by
  obtain ⟨state, events, shut, chores, -⟩ := shutdownNow_chores world used
  rw [shut]
  exact chores

theorem shutdownNow_handed (world : World) : (apeSocketShutdownNow world).handed = world.handed := by
  obtain ⟨state, events, shut, -⟩ := shutdownNow_kept world
  rw [shut]

/-- What a call of `APE_socket_write` comes to. -/
def Hands (start : Desk) (write : Nat) (dataType : DataAutorelease) (outcome : Except Fault (World × Int)) : Prop :=
  ∃ next ret used unused first second, outcome = .ok (next, ret) ∧ next.handed = write ∧ Tidy next used unused ∧
    Chores start first ∧ Lends write dataType first second ∧ Chores second ⟨next.out, used⟩

theorem queue_hands (staffed : Staffed world.socket.jobs used unused) (kept : Resting used ∨ Busy used)
    (chores : Chores start ⟨world.out, used⟩) (object : data.length < 2 ^ 63) {offset : SizeT}
    (inside : offset.toNat < data.length) (dataType : DataAutorelease) (ret : Int) :
    Hands start world.handed dataType ((apeSocketQueueData world data offset dataType).map fun next => (next, ret)) := by
  obtain ⟨jobs, front, slot, stock, pending, left, taken, holds, extend, stored⟩ := staffed_takeData staffed
  obtain ⟨plist, stocked, queued⟩ := queueData_stocked taken holds object inside dataType
  let next := queuedIn world jobs slot plist (data.drop offset.toNat)
    (world.totalMemoryBuffered + BitVec.ofNat 64 (data.drop offset.toNat).length)
  let packet := handedPacket world data offset dataType
  have tidy : Tidy next (front ++ [(slot, .data (stock ++ [packet]))]) left :=
    { staffed := stored plist _ _ stocked (by simp), regular := fun _ => .inr (busy_extends kept extend _) }
  have lends : Lends world.handed dataType ⟨world.out, used⟩ ⟨next.out, front ++ [(slot, .data (stock ++ [packet]))]⟩ := by
    refine .queued extend ?_ rfl
    cases dataType <;> rfl
  rw [queued]
  by_cases overflows : Overflows next.socket
  · refine ⟨apeSocketShutdownNow next, ret, _, left, _, _, ?_, ?_, tidy.shutdownNow, chores, lends, shutdownNow_out next _⟩
    · exact congrArg (fun world => Except.ok (world, ret)) (if_pos overflows)
    · exact shutdownNow_handed next
  · exact ⟨next, ret, _, left, _, _, congrArg (fun world => Except.ok (world, ret)) (if_neg overflows), rfl, tidy, chores,
      lends, .refl⟩

theorem return_hands (tidy : Tidy world used unused) (chores : Chores start ⟨world.out, used⟩) (dataType : DataAutorelease)
    (ioError : Bool) : Hands start world.handed dataType (.ok (writeReturn dataType world ioError)) := by
  let released := world.emit (apeSocketReleaseData (.caller world.handed) (if dataType = .copy then .own else dataType))
  have kept : Tidy released used unused := { staffed := tidy.staffed, regular := tidy.regular }
  cases ioError with
  | false => exact ⟨released, 0, used, unused, _, _, rfl, rfl, kept, chores, .returned, .refl⟩
  | true =>
    exact ⟨apeSocketShutdownNow released, -1, used, unused, _, _, rfl, shutdownNow_handed released, kept.shutdownNow,
      chores, .returned, shutdownNow_out released used⟩

/-- Around `write`: nothing was done yet but calls of it. -/
structure Lending (start : Desk) (write length : Nat) (writing : Writing) (used : List (Nat × Duty)) (unused : List Nat) :
    Prop where
  whole : writing.rBytes = BitVec.ofNat 64 length
  tidy : Tidy writing.world used unused
  chores : Chores start ⟨writing.world.out, used⟩
  handed : writing.world.handed = write
  online : writing.world.socket.state = .online

theorem lending_turn {write : Nat} (object : data.length < 2 ^ 63) {writing : Writing}
    (lending : Lending start write data.length writing used unused) :
    (∃ next, writeTurn kernel data dataType writing = .again next ∧ Lending start write data.length next used unused) ∨
      ∃ outcome, writeTurn kernel data dataType writing = .done outcome ∧ Hands start write dataType outcome := by
  have tidy := lending.tidy
  obtain rfl := lending.handed
  by_cases within : writing.tBytes.toNat < data.length
  · have turn := @turn_within kernel data dataType writing object within lending.whole
    let called := wrote kernel writing.world writing.tBytes.toNat data.length
    have kept : Tidy called used unused := { staffed := tidy.staffed, regular := tidy.regular }
    have chores : Chores start ⟨called.out, used⟩ := chores_event lending.chores rfl
    dsimp only at turn
    cases answer : kernel.reply writing.world.calls data.length with
    | accepted count =>
      simp only [answer] at turn
      exact .inl ⟨_, turn, { whole := lending.whole, tidy := kept, chores, handed := rfl, online := lending.online }⟩
    | again =>
      simp only [answer] at turn
      have resting := (tidy.regular lending.online).imp And.left id
      let blocked : World := { called with socket := { called.socket with wouldBlock := true } }
      exact .inr ⟨_, turn, @queue_hands data blocked start _ _ kept.staffed resting chores object _ within dataType _⟩
    | interrupted | failed =>
      simp only [answer] at turn
      exact .inr ⟨_, turn, return_hands kept chores dataType true⟩
  · have turn := @turn_beyond kernel data dataType writing object (by omega)
    exact .inr ⟨_, turn, return_hands tidy lending.chores dataType false⟩

theorem write_hands (tidy : Tidy world used unused) (object : data.length < 2 ^ 63) {fuel : Nat}
    {outcome : Except Fault (World × Int)} (returned : apeSocketWrite kernel data dataType fuel world = some outcome) :
    Hands ⟨world.out, used⟩ world.handed dataType outcome := by
  by_cases refused : world.socket.state ≠ .online ∨ BitVec.ofNat 64 data.length = 0#64
  · rw [apeSocketWrite, if_pos refused] at returned
    cases returned
    obtain ⟨next, ret, used, unused, first, second, same, rest⟩ := return_hands tidy .refl dataType false
    cases same
    exact ⟨_, -1, used, unused, first, second, rfl, rest⟩
  · obtain ⟨online, nonzero⟩ := not_or.mp refused
    have some_data : data ≠ [] := by
      rintro rfl
      exact nonzero rfl
    obtain ⟨slot, duty, rest, rfl⟩ := tidy.staffed.first
    rw [write_starts (not_not.mp online) tidy.staffed.head some_data object] at returned
    split at returned
    · cases returned
      have resting := (tidy.regular (not_not.mp online)).imp And.left id
      exact @queue_hands data world _ _ _ tidy.staffed resting .refl object 0#64 (List.length_pos_of_ne_nil some_data)
        dataType _
    · have starts : Lending ⟨world.out, (slot, duty) :: rest⟩ world.handed data.length
          { world, rBytes := BitVec.ofNat 64 data.length } ((slot, duty) :: rest) unused :=
        { whole := rfl, tidy, chores := .refl, handed := rfl, online := not_not.mp online }
      exact loop_result (fun writing => Lending _ world.handed data.length writing ((slot, duty) :: rest) unused)
        (Hands _ world.handed dataType) (fun writing lending => lending_turn object lending) starts returned

end Write

/-- The job list as a turn of `ape_socket_do_jobs` sees it. -/
def jobsIn (doing : DoingJobs) : PoolList Job :=
  match doing.label with
  | .rewrite job plist _ | .consume job plist _ => doing.world.socket.jobs.setContent job (.data plist)
  | .job | .sendfile _ _ => doing.world.socket.jobs

/-- The first job has data, and they are packets in this list. -/
def AtWork (used : List (Nat × Duty)) (job : Nat) (plist : PoolList Packet) (pending : List (List Byte)) : Prop :=
  Busy used ∧ pending ≠ [] ∧ ∃ stock rest, used = (job, .data stock) :: rest ∧ Stocked plist stock pending

def AtLabel (maxChunks : Nat) (used : List (Nat × Duty)) : JobsLabel → Prop
  | .job => Resting used ∨ Busy used ∨ ∃ slot rest, used = (slot, .shutdown) :: rest
  | .rewrite job plist chunks => ∃ pending, AtWork used job plist pending ∧ chunks = pending.take maxChunks
  | .consume job plist n => ∃ pending taken, AtWork used job plist pending ∧ taken ≤ pending.flatten.length ∧ 0 < taken ∧
      taken < 2 ^ 63 ∧ n = BitVec.ofNat 64 taken
  | .sendfile _ _ => False

/-- What holds whenever a turn of `ape_socket_do_jobs` starts. -/
structure Minding (maxChunks : Nat) (start : Desk) (write : Nat) (doing : DoingJobs) (used : List (Nat × Duty))
    (unused : List Nat) : Prop where
  staffed : Staffed (jobsIn doing) used unused
  chores : Chores start ⟨doing.world.out, used⟩
  handed : doing.world.handed = write
  ready : doing.world.socket.state = .online ∧ doing.world.socket.wouldBlock = false
  label : AtLabel maxChunks used doing.label

def Minds (maxChunks : Nat) (start : Desk) (write : Nat) (doing : DoingJobs) : Prop :=
  ∃ used unused, Minding maxChunks start write doing used unused

/-- What a call of `ape_socket_do_jobs` comes to. -/
def Flushes (start : Desk) (write : Nat) (result : Except Fault (World × Int)) : Prop :=
  ∃ next ret used unused, result = .ok (next, ret) ∧ next.handed = write ∧ Tidy next used unused ∧
    Chores start ⟨next.out, used⟩

section Flush

variable {kernel : Kernel} {maxChunks : Nat} {world : World} {start : Desk} {write : Nat}
  {used rest : List (Nat × Duty)} {unused : List Nat} {job njobsdone : Nat} {plist : PoolList Packet}
  {stock : List Packet} {pending : List (List Byte)}

theorem setContent_twice {α : Type} (list : PoolList α) (address : Nat) (first second : α) :
    (list.setContent address first).setContent address second = list.setContent address second := by
  simp [PoolList.setContent, PoolList.modify]

/-- The packets of the first job were gone through: it goes on, or it ends and its slot is idle. -/
theorem after_minded {before : PoolList Packet} {first more : List Packet}
    (staffed : Staffed (world.socket.jobs.setContent job (.data before)) ((job, .data first) :: rest) unused)
    (busy : Busy ((job, .data first) :: rest)) (stocked : Stocked plist more pending)
    (chores : Chores start ⟨world.out, (job, .data more) :: rest⟩) (handed : world.handed = write)
    (ready : world.socket.state = .online ∧ world.socket.wouldBlock = false) :
    ∃ next, afterPackets maxChunks world njobsdone job plist = .again next ∧ Minds maxChunks start write next := by
  rcases @afterPackets_cases maxChunks plist pending stocked.packets world njobsdone job with
    ⟨rfl, after⟩ | ⟨some_pending, after⟩
  · obtain rfl := stocked_empty stocked
    obtain ⟨moved, head, turned, staffed⟩ := staffed_finish staffed stocked
    rw [setContent_twice] at turned
    refine ⟨_, after.trans (finishJob_ok turned), rest ++ [(job, Duty.idle true)], unused,
      { staffed, chores := chores.tail .finish, handed, ready, label := ?_ }⟩
    cases rest with
    | nil => exact .inl ⟨job, true, rfl⟩
    | cons entry rest =>
      -- the job behind one with data is a shutdown
      obtain ⟨slot, duty⟩ := entry
      have apart := (List.isChain_cons_cons.mp busy.apart).1
      have active := busy.busy (slot, duty) (by simp)
      cases duty with
      | idle => cases active
      | data _ => cases apart
      | shutdown => exact .inr (.inr ⟨slot, _, rfl⟩)
  · refine ⟨_, after, (job, .data more) :: rest, unused,
      { staffed := ?_, chores, handed, ready,
        label := ⟨pending, ⟨busy.restocked more, some_pending, more, rest, rfl, stocked⟩, rfl⟩ }⟩
    have restocked := staffed_restock staffed stocked some_pending
    rw [setContent_twice] at restocked
    exact restocked

theorem consume_minded {n : SizeT}
    (minding : Minding maxChunks start write { world, njobsdone, label := .consume job plist n } used unused) :
    ∃ next, consumeTurn maxChunks world njobsdone job plist n = .again next ∧ Minds maxChunks start write next := by
  obtain ⟨pending, taken, ⟨busy, some_pending, stock, rest, rfl, stocked⟩, inside, positive, small, rfl⟩ := minding.label
  obtain ⟨list, more, others, left, freed, restocked, kept, consumed, turned⟩ :=
    @consume_stocked maxChunks plist pending taken stock stocked inside positive small world njobsdone job
  have chores : Chores start ⟨(world.emit freed).out, (job, .data more) :: rest⟩ := minding.chores.tail (.consume consumed)
  rcases turned with ⟨-, turn⟩ | ⟨some_left, fits, turn⟩
  · obtain ⟨next, after, minds⟩ := @after_minded maxChunks (world.emit freed) _ _ _ _ job njobsdone list _ plist stock more
      minding.staffed busy restocked chores minding.handed minding.ready
    exact ⟨next, turn.trans after, minds⟩
  · have some_others : others ≠ [] := by
      rintro rfl
      have within := kept.inside
      rw [List.flatten_nil, List.length_nil] at within
      omega
    have staffed := staffed_restock minding.staffed restocked some_others
    rw [show jobsIn { world, njobsdone, label := .consume job plist (BitVec.ofNat 64 taken) } =
      world.socket.jobs.setContent job (.data plist) from rfl, setContent_twice] at staffed
    refine ⟨_, turn, (job, .data more) :: rest, unused,
      { staffed, chores, handed := minding.handed, ready := minding.ready, label := ?_ }⟩
    exact ⟨others, left, ⟨busy.restocked more, some_others, more, rest, rfl, restocked⟩, kept.inside, some_left, fits, rfl⟩

theorem rewrite_minded (some_chunks : 0 < maxChunks) {chunks : List (List Byte)}
    (minding : Minding maxChunks start write { world, njobsdone, label := .rewrite job plist chunks } used unused) :
    (∃ next, rewriteTurn kernel world njobsdone job plist chunks = .again next ∧ Minds maxChunks start write next) ∨
      ∃ result, rewriteTurn kernel world njobsdone job plist chunks = .done result ∧ Flushes start write result := by
  obtain ⟨pending, work, rfl⟩ := minding.label
  obtain ⟨busy, some_pending, stock, rest, rfl, stocked⟩ := work
  let reply := kernel.reply world.calls (pending.take maxChunks).flatten.length
  let called : World := { world with calls := world.calls + 1 }.emit [.writev (pending.take maxChunks) reply]
  have chores : Chores start ⟨called.out, (job, .data stock) :: rest⟩ := chores_event minding.chores rfl
  have left : Tidy (storeList called job plist) ((job, .data stock) :: rest) unused :=
    { staffed := minding.staffed, regular := fun _ => .inr busy }
  cases answer : reply with
  | again =>
    have turned : rewriteTurn kernel world njobsdone job plist (pending.take maxChunks) =
        .done (.ok ({ storeList called job plist with
          socket := { (storeList called job plist).socket with wouldBlock := true } }, 0)) := by
      simp only [rewriteTurn, show kernel.reply _ _ = _ from answer, called, reply]
    exact .inr ⟨_, turned, _, 0, _, unused, rfl, minding.handed,
      { staffed := left.staffed, regular := fun _ => .inr busy }, chores⟩
  | failed =>
    have turned : rewriteTurn kernel world njobsdone job plist (pending.take maxChunks) =
        .done (.ok (apeSocketShutdownNow (storeList called job plist), -1)) := by
      simp only [rewriteTurn, show kernel.reply _ _ = _ from answer, called, reply]
    refine .inr ⟨_, turned, _, -1, _, unused, rfl, ?_, left.shutdownNow,
      chores.trans (shutdownNow_out (storeList called job plist) _)⟩
    rw [shutdownNow_handed]
    exact minding.handed
  | interrupted =>
    have turned : rewriteTurn kernel world njobsdone job plist (pending.take maxChunks) =
        .again { world := called, njobsdone, label := .rewrite job plist (pending.take maxChunks) } := by
      simp only [rewriteTurn, show kernel.reply _ _ = _ from answer, called, reply]
    exact .inl ⟨_, turned, _, unused,
      { staffed := minding.staffed, chores, handed := minding.handed, ready := minding.ready, label := minding.label }⟩
  | accepted count =>
    obtain ⟨inside, short, positive⟩ := kernel.honest _ _ _ answer
    have some_bytes := positive (packets_offered stocked.packets some_pending some_chunks)
    have fewer : (pending.take maxChunks).flatten.length ≤ pending.flatten.length := by
      rw [@flatten_split maxChunks pending, List.length_append]
      omega
    let next : World :=
      { called with
        socket := { called.socket with
          currentBufferMemoryBytes := called.socket.currentBufferMemoryBytes - BitVec.ofNat 64 count }
        totalMemoryBuffered := called.totalMemoryBuffered - BitVec.ofNat 64 count }
    have turned : rewriteTurn kernel world njobsdone job plist (pending.take maxChunks) =
        .again { world := next, njobsdone, label := .consume job plist (BitVec.ofNat 64 count) } := by
      simp only [rewriteTurn, show kernel.reply _ _ = _ from answer, called, reply, next]
    exact .inl ⟨_, turned, _, unused,
      { staffed := minding.staffed, chores, handed := minding.handed, ready := minding.ready,
        label := ⟨pending, count, ⟨busy, some_pending, stock, rest, rfl, stocked⟩, by omega, some_bytes, short, rfl⟩ }⟩

theorem busy_head {entry : Nat × Duty} (busy : Busy (entry :: rest)) :
    (∃ stock, entry.2 = .data stock) ∨ entry.2 = .shutdown := by
  obtain ⟨slot, duty⟩ := entry
  have active := busy.busy (slot, duty) (by simp)
  cases duty with
  | idle => cases active
  | data stock => exact .inl ⟨stock, rfl⟩
  | shutdown => exact .inr rfl

theorem job_minded (minding : Minding maxChunks start write { world, njobsdone } used unused) :
    (∃ next, jobTurn maxChunks world njobsdone = .again next ∧ Minds maxChunks start write next) ∨
      ∃ result, jobTurn maxChunks world njobsdone = .done result ∧ Flushes start write result := by
  have staffed : Staffed world.socket.jobs used unused := minding.staffed
  obtain ⟨online, ready⟩ : world.socket.state = .online ∧ world.socket.wouldBlock = false := minding.ready
  have shuts : ∀ {slot rest}, used = (slot, .shutdown) :: rest →
      ∃ result, jobTurn maxChunks world njobsdone = .done result ∧ Flushes start write result := by
    rintro slot rest rfl
    obtain ⟨active, kind, -⟩ := staffed.serves (slot, .shutdown) (by simp)
    have type : (world.socket.jobs.node slot).flags &&& ~~~(apePoolAllFlags ||| apeSocketJobActive) = apeSocketJobShutdown :=
      kind
    have shut : jobTurn maxChunks world njobsdone =
        .done (.ok ({ world with socket := { world.socket with state := .shutdown } }.emit [.shutdown], -1)) := by
      simp only [jobTurn, staffed.head, (active_iff _ _).mpr active, type, online, Bool.not_true, Bool.false_eq_true,
        ite_false, show apeSocketJobShutdown ≠ apeSocketJobWritev by decide,
        show apeSocketJobShutdown ≠ apeSocketJobSendfile by decide, ite_true]
    let last := { world with socket := { world.socket with state := .shutdown } }.emit [.shutdown]
    have left : Tidy last ((slot, .shutdown) :: rest) unused := { staffed, regular := by simp [last, World.emit] }
    exact ⟨_, shut, last, -1, _, unused, rfl, minding.handed, left, chores_event minding.chores rfl⟩
  rcases minding.label with ⟨slot, listed, rfl⟩ | busy | ⟨slot, rest, shutdown⟩
  · obtain ⟨inactive, -⟩ := staffed.serves (slot, .idle listed) (by simp)
    have tidy : Tidy world [(slot, .idle listed)] unused :=
      { staffed, regular := fun _ => .inl ⟨⟨slot, listed, rfl⟩, ready⟩ }
    exact .inr ⟨_, jobTurn_idle staffed.head ((inactive_iff _ _).mpr inactive), world, njobsdone, _, unused, rfl,
      minding.handed, tidy, minding.chores⟩
  · obtain ⟨slot, duty, rest, rfl⟩ := staffed.first
    rcases busy_head busy with ⟨stock, rfl⟩ | rfl
    · obtain ⟨active, kind, plist, pending, content, stocked, some_pending⟩ :=
        staffed.serves (slot, .data stock) (by simp)
      have type : (world.socket.jobs.node slot).flags &&& ~~~(apePoolAllFlags ||| apeSocketJobActive) = apeSocketJobWritev :=
        kind
      have held : (world.socket.jobs.node slot).content = .data plist := content
      refine .inl ⟨{ world, njobsdone, label := .rewrite slot plist (pending.take maxChunks) }, ?_, _, unused,
        { staffed := staffed_restock staffed stocked some_pending, chores := minding.chores,
          handed := minding.handed, ready := minding.ready,
          label := ⟨pending, ⟨busy, some_pending, stock, rest, rfl, stocked⟩, rfl⟩ }⟩
      simp only [jobTurn, staffed.head, (active_iff _ _).mpr active, type, held, Bool.not_true, Bool.false_eq_true,
        ite_false, ite_true]
      rw [gather_packets stocked.packets]
    · exact .inr (shuts rfl)
  · exact .inr (shuts shutdown)

theorem turn_minded (some_chunks : 0 < maxChunks) {doing : DoingJobs} (minds : Minds maxChunks start write doing) :
    (∃ next, doJobsTurn kernel maxChunks doing = .again next ∧ Minds maxChunks start write next) ∨
      ∃ result, doJobsTurn kernel maxChunks doing = .done result ∧ Flushes start write result := by
  obtain ⟨used, unused, minding⟩ := minds
  rcases doing with ⟨world, njobsdone, label⟩
  cases label with
  | job => exact job_minded minding
  | rewrite job plist chunks => exact rewrite_minded some_chunks minding
  | consume job plist n => exact .inl (consume_minded minding)
  | sendfile job fd => exact absurd minding.label id

end Flush


section Calls

variable {kernel : Kernel} {maxChunks fuel : Nat} {world : World} {used : List (Nat × Duty)} {unused : List Nat}

theorem shutdown_deals (tidy : Tidy world used unused) (write : Nat) :
    ∃ next later left, apeSocketShutdown world = .ok next ∧ next.handed = world.handed ∧ Tidy next later left ∧
      Deals write (.loop .shutdown) ⟨world.out, used⟩ ⟨next.out, later⟩ := by
  cases state : world.socket.state with
  | shutdown | offline =>
    refine ⟨world, used, unused, ?_, rfl, tidy, .chores rfl .refl⟩
    simp only [apeSocketShutdown, state]
  | progress | pending =>
    let closed := { world with socket := { world.socket with state := .offline } }.emit [.destroy]
    have kept : Tidy closed used unused := { staffed := tidy.staffed, regular := by simp [closed, World.emit] }
    refine ⟨closed, used, unused, ?_, rfl, kept, .chores rfl (chores_event .refl rfl)⟩
    simp only [apeSocketShutdown, state, closed]
  | online =>
    obtain ⟨slot, duty, rest, rfl⟩ := tidy.staffed.first
    have serves := tidy.staffed.serves (slot, duty) (by simp)
    have head := tidy.staffed.head
    rcases tidy.regular state with ⟨⟨idle, listed, resting⟩, ready⟩ | busy
    · cases resting
      have quiet : ¬ (world.socket.wouldBlock = true ∨ (world.socket.jobs.node slot).active = true) := by
        rw [ready, (inactive_iff _ _).mpr serves.1]
        simp
      let shut := { world with socket := { world.socket with state := .shutdown } }.emit [.shutdown]
      have kept : Tidy shut [(slot, .idle listed)] unused :=
        { staffed := tidy.staffed, regular := by simp [shut, World.emit] }
      refine ⟨shut, _, unused, ?_, rfl, kept, .chores rfl (chores_event .refl rfl)⟩
      simp only [apeSocketShutdown, state, head, if_neg quiet, shut]
    · have active := (active_iff _ _).mpr (serves_active serves (busy.busy (slot, duty) (by simp)))
      obtain ⟨jobs, last, left, taken, staffed⟩ := staffed_takeShutdown tidy.staffed busy
      let queued : World := { world with socket := { world.socket with jobs } }
      have kept : Tidy queued ((slot, duty) :: rest ++ [(last, .shutdown)]) left :=
        { staffed, regular := fun _ => .inr (busy.shutdown last) }
      refine ⟨queued, _, left, ?_, rfl, kept, .asks⟩
      simp only [apeSocketShutdown, state, head, active, or_true, ite_true, taken, queued]
      rfl

theorem minds_start (tidy : Tidy world used unused)
    (ready : world.socket.state = .online ∧ world.socket.wouldBlock = false) :
    Minds maxChunks ⟨world.out, used⟩ world.handed { world } :=
  ⟨used, unused, { staffed := tidy.staffed, chores := .refl, handed := rfl, ready,
                   label := (tidy.regular ready.1).imp And.left .inl }⟩

theorem visits_minds (some_chunks : 0 < maxChunks) (tidy : Tidy world used unused)
    (ready : world.socket.state = .online ∧ world.socket.wouldBlock = false) {doing : DoingJobs}
    (visits : Visits (doJobsTurn kernel maxChunks) { world } doing) :
    Minds maxChunks ⟨world.out, used⟩ world.handed doing := by
  apply visits_invariant (Minds maxChunks ⟨world.out, used⟩ world.handed) ?_ (minds_start tidy ready) visits
  intro doing next minds again
  rcases @turn_minded kernel maxChunks _ _ some_chunks doing minds with ⟨other, turn, kept⟩ | ⟨result, turn, -⟩
  · cases again.symm.trans turn
    exact kept
  · cases again.symm.trans turn

/-- Every call ends in a tidy world, and does to the list of the duties what it is said to. -/
theorem call_deals (some_chunks : 0 < maxChunks) (tidy : Tidy world used unused) (call : BufferCall) :
    world.performBuffer kernel maxChunks fuel call = .error .endless ∨
      ∃ next later left, world.performBuffer kernel maxChunks fuel call = .ok next ∧
        next.handed = world.handed + call.lifetime.toList.length ∧ Tidy next later left ∧
        Deals world.handed call ⟨world.out, used⟩ ⟨next.out, later⟩ := by
  rcases call with (⟨data, dataType⟩ | _ | _ | _) | _
  · rcases returned : apeSocketWrite kernel data.bytes dataType fuel world with _ | outcome
    · refine .inl ?_
      simp only [World.performBuffer, World.performLoop, World.performApi, World.perform, returned]
      rfl
    · obtain ⟨next, ret, later, left, first, second, rfl, handed, kept, before, lent, after⟩ :=
        write_hands tidy data.object returned
      refine .inr ⟨{ next with handed := next.handed + 1 }, later, left, ?_, ?_,
        { staffed := kept.staffed, regular := kept.regular }, .lends before lent after⟩
      · simp only [World.performBuffer, World.performLoop, World.performApi, World.perform, returned]
        rfl
      · rw [handed]
        rfl
  · obtain ⟨next, later, left, asked, handed, kept, deals⟩ := shutdown_deals tidy world.handed
    refine .inr ⟨next, later, left, ?_, handed, kept, deals⟩
    simp only [World.performBuffer, World.performLoop, World.performApi, asked]
    rfl
  · let writable : World := { world with socket := { world.socket with wouldBlock := false } }
    have kept : Tidy writable used unused :=
      { staffed := tidy.staffed, regular := fun online => (tidy.regular online).imp (fun resting => ⟨resting.1, rfl⟩) id }
    exact .inr ⟨writable, used, unused, rfl, rfl, kept, .chores rfl .refl⟩
  · by_cases ready : world.socket.state = .online ∧ world.socket.wouldBlock = false
    · rcases returned : apeSocketDoJobs kernel maxChunks fuel world with _ | result
      · refine .inl ?_
        simp only [World.performBuffer, World.performLoop, if_pos ready, World.performApi, World.perform, returned]
        rfl
      · obtain ⟨next, ret, later, left, rfl, handed, kept, chores⟩ :=
          loop_result (Minds maxChunks ⟨world.out, used⟩ world.handed) (Flushes ⟨world.out, used⟩ world.handed)
            (fun _ => turn_minded some_chunks) (minds_start tidy ready) returned
        refine .inr ⟨next, later, left, ?_, handed, kept, .chores rfl chores⟩
        simp only [World.performBuffer, World.performLoop, if_pos ready, World.performApi, World.perform, returned]
        rfl
    · refine .inr ⟨world, used, unused, ?_, rfl, tidy, .chores rfl .refl⟩
      simp only [World.performBuffer, World.performLoop, if_neg ready]
  · exact .inr ⟨_, used, unused, rfl, shutdownNow_handed world, tidy.shutdownNow, .chores rfl (shutdownNow_out world used)⟩

end Calls

end ZapeProof
