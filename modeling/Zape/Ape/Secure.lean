import Zape.Ape.Blocking
import Zape.Ape.Serving

/-! A secure socket: what is written to it, and its jobs, go through `ape_ssl_write`. -/
namespace ZapeModel

open Machine

section Secure

variable (kernel : Kernel) (ssl : Nat → SslReply)

/-- `APE_socket_write` on a secure socket. -/
def apeSocketWriteSecure (data : List Byte) (dataType : DataAutorelease) (world : World) : Except Fault (World × Int) :=
  let len : SizeT := BitVec.ofNat 64 data.length
  if world.socket.state ≠ .online ∨ len = 0#64 then
    .ok (world.emit (apeSocketReleaseData (.caller world.handed) (if dataType = .copy then .own else dataType)), -1)
  else
    match world.socket.jobs.head with
    | none => .error .nullDereference
    | some head =>
      if world.socket.wouldBlock ∨ (world.socket.jobs.node head).active then
        (apeSocketQueueData world data 0#64 dataType).map fun world => (world, intOfSize len)
      else
        let reply := ssl world.calls
        let called := { world with calls := world.calls + 1 }.emit [.sslWrite data reply]
        match reply with
        | .wantWrite | .wantRead =>
          let blocked := { called with socket := { called.socket with needWrite := true, wouldBlock := true } }
          (apeSocketQueueData blocked data 0#64 dataType).map fun world => (world, intOfSize len)
        | .failed => .ok (writeReturn dataType called true)
        | .written | .zeroReturn => .ok (writeReturn dataType called false)

/-- One turn of the loop over the packets of a secure socket; a packet is offered as a whole. -/
def secureTurn (world : World) (njobsdone : Nat) (job : Nat) (plist : PoolList Packet) : JobsTurn :=
  match plist.head with
  | none => finishJob (storeList world job plist) njobsdone job
  | some head =>
    let packet := (plist.node head).content
    match packet.data with
    | none => finishJob (storeList world job plist) njobsdone job
    | some data =>
      let reply := ssl world.calls
      let called := { world with calls := world.calls + 1 }.emit [.sslWrite data reply]
      match reply with
      | .wantWrite | .wantRead =>
        let stored := storeList called job plist
        .done (.ok ({ stored with socket := { stored.socket with needWrite := true, wouldBlock := true } }, 0))
      | .failed => .done (.ok (apeSocketShutdownNow (storeList called job plist), 0))
      | .written | .zeroReturn =>
        match apePoolHeadToQueue (plist.setContent head { packet with data := none }) with
        | .error fault => .done (.error fault)
        | .ok (plist, _) =>
          .again { world := called.emit (apeSocketReleaseData packet.pointer packet.dataType), njobsdone,
                   label := .rewrite job plist [] }

/-- Of a secure socket no chunks are gathered: in place of `rewrite` stands the loop over the packets. -/
def doSecureTurn (doing : DoingJobs) : JobsTurn :=
  match doing.label with
  | .job => jobTurn 0 doing.world doing.njobsdone
  | .rewrite job plist _ | .consume job plist _ => secureTurn ssl doing.world doing.njobsdone job plist
  | .sendfile job fd => sendfileTurn kernel doing.world doing.njobsdone job fd

/-- `ape_socket_do_jobs` on a secure socket, with at most so many turns of its loops. -/
def apeSocketDoJobsSecure (fuel : Nat) (world : World) : Option (Except Fault (World × Int)) :=
  loop (doSecureTurn kernel ssl) fuel { world }

end Secure

/-- `ape_ssl_write` is to be called again with the same packet. -/
def SslReply.wants : SslReply → Bool
  | .wantWrite | .wantRead => true
  | .written | .zeroReturn | .failed => false

/-- The packet is not taken. -/
def SslReply.refuses : SslReply → Bool
  | .wantWrite | .wantRead | .failed => true
  | .written | .zeroReturn => false

end ZapeModel

namespace ZapeProof

open Machine ZapeModel

/-- The bytes that were counted are as they were. -/
structure Uncounted (before after : World) : Prop where
  bytes : after.socket.currentBufferMemoryBytes = before.socket.currentBufferMemoryBytes
  total : after.totalMemoryBuffered = before.totalMemoryBuffered

/-- There is one job, and it is not a shutdown. -/
def Single (jobs : PoolList Job) (duty : Duty) : Prop := (∃ unused, Staffed jobs [(0, duty)] unused) ∧ duty ≠ .shutdown

section Single

variable {kernel : Kernel} {ssl : Nat → SslReply} {world next : World} {duty : Duty} {stock : List Packet}

theorem Single.packets {jobs : PoolList Job} (single : Single jobs duty) : queuedPackets jobs = duty.stock := by
  obtain ⟨⟨unused, staffed⟩, -⟩ := single
  rw [staffed_packets staffed]
  exact List.flatMap_singleton _ _

theorem shutdownNow_single (world : World) :
    Uncounted world (apeSocketShutdownNow world) ∧ (apeSocketShutdownNow world).socket.jobs = world.socket.jobs := by
  obtain ⟨state, events, shut, -⟩ := shutdownNow_kept world
  rw [shut]
  exact ⟨⟨rfl, rfl⟩, rfl⟩

/-- What the jobs of a secure socket come to: the bytes that were sent are not taken off any count. -/
def Shrinks (start : World) (stock : List Packet) (result : Except Fault (World × Int)) : Prop :=
  ∃ next ret duty, result = .ok (next, ret) ∧ Uncounted start next ∧ Single next.socket.jobs duty ∧ duty.stock <:+ stock

/-- Between two turns: at most so much is still queued. -/
def Shrinking (start : World) (stock : List Packet) (doing : DoingJobs) : Prop :=
  Uncounted start doing.world ∧
    match doing.label with
    | .job => ∃ duty, Single doing.world.socket.jobs duty ∧ duty.stock <:+ stock
    | .rewrite job plist _ => job = 0 ∧ ∃ first left pending, Single doing.world.socket.jobs (.data first) ∧
        Stocked plist left pending ∧ left <:+ stock
    | .consume _ _ _ | .sendfile _ _ => False

theorem shrinking_suffix {start : World} {fewer : List Packet} {doing : DoingJobs} (shrinking : Shrinking start fewer doing)
    (within : fewer <:+ stock) : Shrinking start stock doing := by
  rcases doing with ⟨world, njobsdone, label⟩
  obtain ⟨uncounted, here⟩ := shrinking
  cases label with
  | job =>
    obtain ⟨duty, single, left⟩ := here
    exact ⟨uncounted, duty, single, left.trans within⟩
  | rewrite job plist chunks =>
    obtain ⟨rfl, first, left, pending, single, stocked, few⟩ := here
    exact ⟨uncounted, rfl, first, left, pending, single, stocked, few.trans within⟩
  | consume job plist n => exact absurd here id
  | sendfile job fd => exact absurd here id

/-- The list is empty: its job ends. -/
theorem finish_single {start : World} {njobsdone : Nat} {plist : PoolList Packet} {first : List Packet}
    (single : Single world.socket.jobs (.data first)) (stocked : Stocked plist [] []) (uncounted : Uncounted start world) :
    ∃ next, finishJob (storeList world 0 plist) njobsdone 0 = .again next ∧ Shrinking start stock next := by
  obtain ⟨⟨unused, staffed⟩, -⟩ := single
  obtain ⟨moved, head, turned, ended⟩ := staffed_finish staffed stocked
  refine ⟨_, finishJob_ok turned, ⟨uncounted.bytes, uncounted.total⟩, .idle true, ⟨⟨unused, ended⟩, ?_⟩, ?_⟩
  · simp
  · exact List.nil_suffix

/-- The first packet is offered, and taken off the list unless it is refused. -/
theorem secureTurn_offers {start : World} {plist : PoolList Packet} {first left : List Packet} {packet : Packet}
    {suffix : List Byte} {pending : List (List Byte)} (single : Single world.socket.jobs (.data first))
    (stocked : Stocked plist (packet :: left) (suffix :: pending)) (uncounted : Uncounted start world) (njobsdone : Nat) :
    ((ssl world.calls).refuses = true ∧
      ∃ next, secureTurn ssl world njobsdone 0 plist = .done (.ok (next, 0)) ∧ Uncounted start next ∧
        Single next.socket.jobs (.data (packet :: left))) ∨
    ((ssl world.calls).refuses = false ∧
      ∃ next, secureTurn ssl world njobsdone 0 plist = .again next ∧ Shrinking start left next) := by
  obtain ⟨slot, data, head, held, carries⟩ := stocked_head stocked
  have content : (plist.node slot).content = packet := held
  let called := { world with calls := world.calls + 1 }.emit [.sslWrite data (ssl world.calls)]
  have counted : Uncounted start called := ⟨uncounted.bytes, uncounted.total⟩
  have stored : Single (storeList called 0 plist).socket.jobs (.data (packet :: left)) := by
    obtain ⟨⟨unused, staffed⟩, -⟩ := single
    exact ⟨⟨unused, staffed_restock staffed stocked (by simp)⟩, by simp⟩
  have turn : secureTurn ssl world njobsdone 0 plist =
      match ssl world.calls with
      | .wantWrite | .wantRead =>
        .done (.ok ({ storeList called 0 plist with
          socket := { (storeList called 0 plist).socket with needWrite := true, wouldBlock := true } }, 0))
      | .failed => .done (.ok (apeSocketShutdownNow (storeList called 0 plist), 0))
      | .written | .zeroReturn =>
        match apePoolHeadToQueue (plist.setContent slot { packet with data := none }) with
        | .error fault => .done (.error fault)
        | .ok (plist, _) =>
          .again { world := called.emit (apeSocketReleaseData packet.pointer packet.dataType), njobsdone,
                   label := .rewrite 0 plist [] } := by
    simp only [secureTurn, head, content, carries.stored]
    rfl
  obtain ⟨popped, next, moved, rest⟩ := @stocked_pop _ _ _ _ _ stocked slot head { packet with data := none } rfl
  rw [turn]
  cases reply : ssl world.calls with
  | wantWrite | wantRead => exact .inl ⟨rfl, _, rfl, ⟨counted.bytes, counted.total⟩, stored⟩
  | failed =>
    obtain ⟨same, jobs⟩ := shutdownNow_single (storeList called 0 plist)
    refine .inl ⟨rfl, _, rfl, ?_, jobs.symm ▸ stored⟩
    exact ⟨same.bytes.trans counted.bytes, same.total.trans counted.total⟩
  | written | zeroReturn =>
    let released := called.emit (apeSocketReleaseData packet.pointer packet.dataType)
    refine .inr ⟨rfl, { world := released, njobsdone, label := .rewrite 0 popped [] }, by simp only [moved, released], ?_⟩
    exact ⟨⟨counted.bytes, counted.total⟩, rfl, first, left, pending, single, rest, List.suffix_rfl⟩

theorem jobTurn_single {njobsdone : Nat} (single : Single world.socket.jobs duty) :
    (∃ listed, duty = .idle listed ∧ jobTurn 0 world njobsdone = .done (.ok (world, njobsdone))) ∨
      ∃ packet left plist suffix pending, duty = .data (packet :: left) ∧
        Stocked plist (packet :: left) (suffix :: pending) ∧
        jobTurn 0 world njobsdone = .again { world, njobsdone, label := .rewrite 0 plist [] } := by
  obtain ⟨⟨unused, staffed⟩, data⟩ := single
  have serves := staffed.serves (0, duty) (by simp)
  cases duty with
  | idle listed => exact .inl ⟨listed, rfl, jobTurn_idle staffed.head ((inactive_iff _ _).mpr serves.1)⟩
  | data stock =>
    obtain ⟨active, kind, plist, pending, content, stocked, some_pending⟩ := serves
    obtain ⟨suffix, pending, rfl⟩ := List.exists_cons_of_ne_nil some_pending
    have type : (world.socket.jobs.node 0).flags &&& ~~~(apePoolAllFlags ||| apeSocketJobActive) = apeSocketJobWritev := kind
    have held : (world.socket.jobs.node 0).content = .data plist := content
    obtain ⟨packet, left, rfl⟩ : ∃ packet left, stock = packet :: left := by
      cases stock with
      | nil => exact absurd (stocked_nil stocked) some_pending
      | cons packet left => exact ⟨packet, left, rfl⟩
    refine .inr ⟨packet, left, plist, suffix, pending, rfl, stocked, ?_⟩
    simp only [jobTurn, staffed.head, (active_iff _ _).mpr active, type, held, Bool.not_true, Bool.false_eq_true,
      ite_false, ite_true]
    rfl
  | shutdown => exact absurd rfl data

theorem turn_shrinks {start : World} {doing : DoingJobs} (shrinking : Shrinking start stock doing) :
    (∃ next, doSecureTurn kernel ssl doing = .again next ∧ Shrinking start stock next) ∨
      ∃ result, doSecureTurn kernel ssl doing = .done result ∧ Shrinks start stock result := by
  rcases doing with ⟨world, njobsdone, label⟩
  obtain ⟨uncounted, here⟩ := shrinking
  cases label with
  | job =>
    obtain ⟨duty, single, fewer⟩ := here
    rcases @jobTurn_single world duty njobsdone single with
      ⟨listed, rfl, turn⟩ | ⟨packet, left, plist, suffix, pending, rfl, stocked, turn⟩
    · exact .inr ⟨_, turn, world, njobsdone, .idle listed, rfl, uncounted, single, fewer⟩
    · exact .inl ⟨_, turn, uncounted, rfl, _, _, _, single, stocked, fewer⟩
  | rewrite job plist chunks =>
    obtain ⟨rfl, first, left, pending, single, stocked, fewer⟩ := here
    cases pending with
    | nil =>
      obtain rfl := stocked_empty stocked
      obtain ⟨next, turn, shrinking⟩ := @finish_single world stock start njobsdone plist first single stocked uncounted
      obtain ⟨slot, head, empty⟩ := packets_empty stocked.packets
      refine .inl ⟨next, ?_, shrinking⟩
      rw [← turn]
      simp only [doSecureTurn, secureTurn, head, show (plist.node slot).content.data = none from empty]
    | cons suffix pending =>
      obtain ⟨packet, left, rfl⟩ : ∃ packet more, left = packet :: more := by
        cases left with
        | nil => cases stocked_nil stocked
        | cons packet more => exact ⟨packet, more, rfl⟩
      rcases secureTurn_offers single stocked uncounted njobsdone with ⟨-, next, turn, same, kept⟩ | ⟨-, next, turn, kept⟩
      · exact .inr ⟨_, turn, next, 0, .data (packet :: left), rfl, same, kept, fewer⟩
      · exact .inl ⟨next, turn, shrinking_suffix kept ((List.suffix_cons packet left).trans fewer)⟩
  | consume job plist n => exact absurd here id
  | sendfile job fd => exact absurd here id

/-- The jobs leave all that is queued if nothing is, or if its first packet is refused, and else they take that packet. -/
theorem doJobs_single {fuel : Nat} {result : Except Fault (World × Int)} (single : Single world.socket.jobs duty)
    (returned : apeSocketDoJobsSecure kernel ssl fuel world = some result) :
    ∃ next ret after, result = .ok (next, ret) ∧ Uncounted world next ∧ Single next.socket.jobs after ∧
      ((duty.stock = [] ∨ (ssl world.calls).refuses = true) ∧ after.stock = duty.stock ∨
        (ssl world.calls).refuses = false ∧ ∃ packet left, duty.stock = packet :: left ∧ after.stock <:+ left) := by
  cases fuel with
  | zero => cases returned
  | succ fuel =>
    rcases @jobTurn_single world duty 0 single with
      ⟨listed, rfl, turn⟩ | ⟨packet, left, plist, suffix, pending, rfl, stocked, turn⟩
    · rw [apeSocketDoJobsSecure, loop_done (show doSecureTurn kernel ssl { world } = _ from turn)] at returned
      cases returned
      exact ⟨world, 0, .idle listed, rfl, ⟨rfl, rfl⟩, single, .inl ⟨.inl rfl, rfl⟩⟩
    · rw [apeSocketDoJobsSecure, loop_again (show doSecureTurn kernel ssl { world } = _ from turn)] at returned
      cases fuel with
      | zero => cases returned
      | succ fuel =>
        rcases @secureTurn_offers ssl world world plist _ left packet suffix pending single stocked ⟨rfl, rfl⟩ 0 with
          ⟨refused, next, turn, same, kept⟩ | ⟨taken, next, turn, kept⟩
        · rw [loop_done turn] at returned
          cases returned
          exact ⟨next, 0, _, rfl, same, kept, .inl ⟨.inr refused, rfl⟩⟩
        · rw [loop_again turn] at returned
          obtain ⟨last, ret, after, rfl, same, kept, fewer⟩ :=
            loop_result (Shrinking world left) (Shrinks world left) (fun _ => turn_shrinks) kept returned
          exact ⟨last, ret, after, rfl, same, kept, .inr ⟨taken, packet, left, rfl, fewer⟩⟩

theorem single_occupied (single : Single world.socket.jobs duty) :
    headActive world.socket = true ↔ duty.stock ≠ [] := by
  obtain ⟨⟨unused, staffed⟩, data⟩ := single
  have serves := staffed.serves (0, duty) (by simp)
  simp only [headActive, staffed.head]
  cases duty with
  | idle listed => simp [(inactive_iff _ _).mpr serves.1, Duty.stock]
  | data stock =>
    obtain ⟨active, -, plist, pending, -, stocked, some_pending⟩ := serves
    simp only [(active_iff _ _).mpr active, Duty.stock, true_iff]
    rintro rfl
    exact some_pending (stocked_nil stocked)
  | shutdown => exact absurd rfl data

theorem single_positive {jobs : PoolList Job} {packet : Packet} {left : List Packet} (single : Single jobs duty)
    (stock : duty.stock = packet :: left) : 0 < (packet.len - packet.offset).toNat := by
  obtain ⟨⟨unused, staffed⟩, -⟩ := single
  have serves := staffed.serves (0, duty) (by simp)
  cases duty with
  | idle listed => cases stock
  | data packets =>
    obtain rfl : packets = packet :: left := stock
    obtain ⟨-, -, plist, pending, -, stocked, some_pending⟩ := serves
    obtain ⟨suffix, pending, rfl⟩ := List.exists_cons_of_ne_nil some_pending
    obtain ⟨slot, data, -, -, carries⟩ := stocked_head stocked
    rw [carries.remaining, toNat_ofNat_size carries.short]
    exact carries.positive
  | shutdown => cases stock

/-- What `APE_socket_write` is given is queued. -/
def Queues (ssl : Nat → SslReply) (world : World) (data : List Byte) : Prop :=
  world.socket.state = .online ∧ data ≠ [] ∧
    (world.socket.wouldBlock = true ∨ headActive world.socket = true ∨ (ssl world.calls).wants = true)

instance (ssl : Nat → SslReply) (world : World) (data : List Byte) : Decidable (Queues ssl world data) := instDecidableAnd

/-- Another packet with so many bytes is counted, and the connection is cut if these are too many. -/
structure Queued (data : List Byte) (before after : World) (duty more : Duty) : Prop where
  limit : after.socket.maxBufferMemoryMb = before.socket.maxBufferMemoryMb
  bytes : after.socket.currentBufferMemoryBytes = before.socket.currentBufferMemoryBytes + BitVec.ofNat 64 data.length
  total : after.totalMemoryBuffered = before.totalMemoryBuffered + BitVec.ofNat 64 data.length
  single : Single after.socket.jobs more
  stock : ∃ packet, more.stock = duty.stock ++ [packet] ∧ packet.len - packet.offset = BitVec.ofNat 64 data.length
  log : queuedSuffixes after.out = queuedSuffixes before.out ++ [data]
  cut : after.socket.state = .shutdown ↔ Overflows after.socket

theorem queue_single {data : List Byte} {dataType : DataAutorelease} (single : Single world.socket.jobs duty)
    (online : world.socket.state = .online) (object : data.length < 2 ^ 63) (some_data : data ≠ []) :
    ∃ next more, apeSocketQueueData world data 0#64 dataType = .ok next ∧ Queued data world next duty more := by
  obtain ⟨⟨unused, staffed⟩, shutdown⟩ := single
  obtain ⟨jobs, front, slot, stock, pending, left, taken, holds, extend, stored⟩ := staffed_takeData staffed
  have inside : (0#64 : SizeT).toNat < data.length := List.length_pos_of_ne_nil some_data
  obtain ⟨plist, stocked, queued⟩ := queueData_stocked taken holds object inside dataType
  have whole : data.drop (0#64 : SizeT).toNat = data := List.drop_zero
  rw [whole] at queued stocked
  obtain ⟨rfl, rfl, rfl⟩ : front = [] ∧ slot = 0 ∧ stock = duty.stock := by
    rcases extend with ⟨other, used, -, rfl⟩ | ⟨rfl, -, before, other, used⟩
    · obtain ⟨rfl, same⟩ := List.append_inj' (show [] ++ [(0, duty)] = front ++ [(slot, other)] from used) rfl
      cases same
      exact ⟨rfl, rfl, rfl⟩
    · obtain ⟨-, same⟩ := List.append_inj' (show [] ++ [(0, duty)] = before ++ [(other, Duty.shutdown)] from used) rfl
      cases same
      exact absurd rfl shutdown
  let next := queuedIn world jobs 0 plist data (world.totalMemoryBuffered + BitVec.ofNat 64 data.length)
  let packet := handedPacket world data 0#64 dataType
  have kept : Single next.socket.jobs (.data (duty.stock ++ [packet])) :=
    ⟨⟨left, stored plist _ _ stocked (by simp)⟩, by simp⟩
  have log : queuedSuffixes next.out = queuedSuffixes world.out ++ [data] := queuedSuffixes_append _ _
  have counted : packet.len - packet.offset = BitVec.ofNat 64 data.length := BitVec.sub_zero _
  by_cases overflows : Overflows next.socket
  · obtain ⟨state, events, shut, only⟩ := shutdownNow_kept next
    have cut := @shutdownNow_state next online
    refine ⟨apeSocketShutdownNow next, .data (duty.stock ++ [packet]), queued.trans (congrArg Except.ok (if_pos overflows)), ?_⟩
    rw [shut] at cut ⊢
    refine { limit := rfl, bytes := rfl, total := rfl, single := kept, stock := ⟨packet, rfl, counted⟩, log := ?_,
             cut := iff_of_true cut overflows }
    rw [queuedSuffixes_append, queuedSuffixes_aside only, List.append_nil, log]
  · refine ⟨next, .data (duty.stock ++ [packet]), queued.trans (congrArg Except.ok (if_neg overflows)), ?_⟩
    have open_still : next.socket.state ≠ .shutdown := by
      rw [show next.socket.state = .online from online]
      decide
    exact { limit := rfl, bytes := rfl, total := rfl, single := kept, stock := ⟨packet, rfl, counted⟩, log,
            cut := iff_of_false open_still overflows }

theorem return_single {dataType : DataAutorelease} (single : Single world.socket.jobs duty) (ioError : Bool) :
    let next := (writeReturn dataType world ioError).1
    Uncounted world next ∧ Single next.socket.jobs duty ∧ queuedSuffixes next.out = queuedSuffixes world.out := by
  have frees := queuedSuffixes_aside (release_aside (.caller world.handed) (if dataType = .copy then .own else dataType))
  cases ioError with
  | false => exact ⟨⟨rfl, rfl⟩, single, by simp [writeReturn, World.emit, frees]⟩
  | true =>
    let released := world.emit (apeSocketReleaseData (.caller world.handed) (if dataType = .copy then .own else dataType))
    obtain ⟨state, events, shut, only⟩ := shutdownNow_kept released
    rw [show (writeReturn dataType world true).1 = _ from shut]
    refine ⟨⟨rfl, rfl⟩, single, ?_⟩
    simp [released, World.emit, frees, queuedSuffixes_aside only]

/-- A write queues its data as a whole, or it leaves all counts and the list as they were. -/
theorem write_single {data : List Byte} {dataType : DataAutorelease} (single : Single world.socket.jobs duty)
    (object : data.length < 2 ^ 63) :
    ∃ next ret, apeSocketWriteSecure ssl data dataType world = .ok (next, ret) ∧
      (Queues ssl world data ∧ (∃ more, Queued data world next duty more) ∨
        ¬ Queues ssl world data ∧ Uncounted world next ∧ Single next.socket.jobs duty ∧
          queuedSuffixes next.out = queuedSuffixes world.out) := by
  by_cases refused : world.socket.state ≠ .online ∨ BitVec.ofNat 64 data.length = 0#64
  · obtain ⟨counts, kept, log⟩ := @return_single world duty dataType single false
    have returned : apeSocketWriteSecure ssl data dataType world = .ok ((writeReturn dataType world false).1, -1) := by
      rw [apeSocketWriteSecure, if_pos refused]
      rfl
    refine ⟨_, -1, returned, .inr ⟨?_, counts, kept, log⟩⟩
    rintro ⟨online, some_data, -⟩
    exact refused.elim (absurd online) (size_ne_zero (List.length_pos_of_ne_nil some_data) object)
  obtain ⟨online, nonzero⟩ := not_or.mp refused
  rw [not_not] at online
  have some_data : data ≠ [] := by
    rintro rfl
    exact nonzero rfl
  obtain ⟨⟨unused, staffed⟩, data_only⟩ := single
  have head := staffed.head
  have single : Single world.socket.jobs duty := ⟨⟨unused, staffed⟩, data_only⟩
  have occupied : headActive world.socket = (world.socket.jobs.node 0).active := by simp only [headActive, head]
  have starts : apeSocketWriteSecure ssl data dataType world =
      if world.socket.wouldBlock ∨ headActive world.socket = true then
        (apeSocketQueueData world data 0#64 dataType).map fun world => (world, intOfSize (BitVec.ofNat 64 data.length))
      else
        let reply := ssl world.calls
        let called := { world with calls := world.calls + 1 }.emit [.sslWrite data reply]
        match reply with
        | .wantWrite | .wantRead =>
          let blocked := { called with socket := { called.socket with needWrite := true, wouldBlock := true } }
          (apeSocketQueueData blocked data 0#64 dataType).map fun world => (world, intOfSize (BitVec.ofNat 64 data.length))
        | .failed => .ok (writeReturn dataType called true)
        | .written | .zeroReturn => .ok (writeReturn dataType called false) := by
    rw [apeSocketWriteSecure, if_neg refused]
    simp only [head, occupied]
  rw [starts]
  by_cases held : world.socket.wouldBlock = true ∨ headActive world.socket = true
  · obtain ⟨next, more, queued, counts⟩ := @queue_single world duty data dataType single online object some_data
    refine ⟨next, intOfSize (BitVec.ofNat 64 data.length), ?_, .inl ⟨⟨online, some_data, held.imp id .inl⟩, more, counts⟩⟩
    rw [if_pos held, queued]
    rfl
  · rw [if_neg held]
    let called (reply : SslReply) : World := { world with calls := world.calls + 1 }.emit [.sslWrite data reply]
    have quiet : ∀ reply, queuedSuffixes (called reply).out = queuedSuffixes world.out :=
      fun reply => (queuedSuffixes_append _ _).trans (List.append_nil _)
    have none : (ssl world.calls).wants = false → ¬ Queues ssl world data := by
      rintro unwanted ⟨-, -, blocked | occupied | wanted⟩
      · exact held (.inl blocked)
      · exact held (.inr occupied)
      · cases unwanted.symm.trans wanted
    cases reply : ssl world.calls with
    | wantWrite | wantRead =>
      let blocked (reply : SslReply) : World :=
        { called reply with socket := { (called reply).socket with needWrite := true, wouldBlock := true } }
      obtain ⟨next, more, queued, counts⟩ :=
        @queue_single (blocked (ssl world.calls)) duty data dataType single online object some_data
      rw [reply] at queued counts
      have wanted : (ssl world.calls).wants = true := by rw [reply]; rfl
      refine ⟨next, intOfSize (BitVec.ofNat 64 data.length), ?_, .inl ⟨⟨online, some_data, .inr (.inr wanted)⟩, more, ?_⟩⟩
      · exact congrArg (Except.map fun world => (world, intOfSize (BitVec.ofNat 64 data.length))) queued
      · exact { limit := counts.limit, bytes := counts.bytes, total := counts.total, single := counts.single,
                stock := counts.stock, log := counts.log.trans (congrArg (· ++ [data]) (quiet _)), cut := counts.cut }
    | failed =>
      have unwanted : (ssl world.calls).wants = false := by rw [reply]; rfl
      obtain ⟨counts, kept, log⟩ := @return_single (called .failed) duty dataType single true
      exact ⟨_, _, rfl, .inr ⟨none unwanted, ⟨counts.bytes, counts.total⟩, kept, log.trans (quiet _)⟩⟩
    | written | zeroReturn =>
      have unwanted : (ssl world.calls).wants = false := by rw [reply]; rfl
      obtain ⟨counts, kept, log⟩ := @return_single (called (ssl world.calls)) duty dataType single false
      rw [reply] at counts kept log
      exact ⟨_, _, rfl, .inr ⟨none unwanted, ⟨counts.bytes, counts.total⟩, kept, log.trans (quiet _)⟩⟩

end Single

end ZapeProof
