import Zape.Ape.Counting

/-! The records that a secure socket offers to `ape_ssl_write`, and what comes of them. -/
namespace ZapeModel

open Machine

/-- What happens to a secure socket: a call of the application, or what the event loop does first on these events. -/
inductive RecordCall
  | write (data : DataObject) (dataType : DataAutorelease)
  | readable
  | writable
  | doJobs

def RecordCall.given : RecordCall → Option (List Byte)
  | .write data _ => if data.bytes = [] then none else some data.bytes
  | .readable | .writable | .doJobs => none

def World.performSecure (kernel : Kernel) (ssl : Nat → SslReply) (fuel : Nat) (world : World) :
    RecordCall → Except Stop World
  | .write data dataType =>
    (Stop.outcome (some (apeSocketWriteSecure ssl data.bytes dataType world))).map fun result =>
      { result.1 with handed := result.1.handed + 1 }
  | .readable =>
    if world.socket.needWrite then
      ApeGlobal.doJobs kernel ssl fuel { world with socket := { world.socket with needWrite := false } }
    else .ok world
  | .writable => .ok { world with socket := { world.socket with wouldBlock := false } }
  | .doJobs => ApeGlobal.doJobs kernel ssl fuel world

/-- So many of the bytes `SSL_write` sees: `num` of `ape_ssl_write` is an `int`. -/
def sslRecord (data : List Byte) : List Byte := data.take (BitVec.ofNat 32 data.length).toInt.toNat

/-- The records that were offered, each with the answer. -/
def offersOf (out : List SocketEvent) : List (List Byte × SslReply) :=
  out.filterMap fun
    | .sslWrite data reply => some (sslRecord data, reply)
    | _ => none

/-- The records that the socket is done with. -/
def settled (offers : List (List Byte × SslReply)) : List (List Byte) :=
  (offers.filter fun offer => !offer.2.refuses).map Prod.fst

end ZapeModel

namespace ZapeProof

open Machine ZapeModel

/-- What OpenSSL asks of its caller: after `WANT_READ` or `WANT_WRITE` the same record comes again, and nothing else
    before it. -/
def Retried (earlier later : List Byte × SslReply) : Prop := earlier.2.wants = true → later.1 = earlier.1

def recordsOf (stock : List Packet) : List (List Byte) := stock.map fun packet => sslRecord (packet.data.getD [])

/-- The records that wait in the queue of the socket. -/
def waitingRecords (world : World) : List (List Byte) := recordsOf (queuedPackets world.socket.jobs)

/-- How the records asked for stand: some are settled, some wait, and what OpenSSL wants again waits first. -/
structure Recorded (asked : List (List Byte)) (world : World) (stock : List Packet) : Prop where
  first : settled (offersOf world.out) ++ recordsOf stock <+: asked
  whole : world.socket.state = .online → settled (offersOf world.out) ++ recordsOf stock = asked
  chain : (offersOf world.out).IsChain Retried
  retry : ∀ offer ∈ (offersOf world.out).getLast?, offer.2.wants = true → (recordsOf stock).head? = some offer.1

section Offers

variable {asked : List (List Byte)} {world next : World} {stock left : List Packet} {packet : Packet}
  {data : List Byte} {reply : SslReply}

theorem offersOf_append (left right : List SocketEvent) : offersOf (left ++ right) = offersOf left ++ offersOf right :=
  List.filterMap_append

theorem offersOf_aside {events : List SocketEvent} (all : ∀ event ∈ events, aside event = true) : offersOf events = [] := by
  unfold offersOf
  rw [List.filterMap_eq_nil_iff]
  intro event member
  have only := all event member
  cases event <;> first | rfl | cases only

theorem settled_append (earlier later : List (List Byte × SslReply)) :
    settled (earlier ++ later) = settled earlier ++ settled later := by
  unfold settled
  rw [List.filter_append, List.map_append]

theorem settled_refused (refused : reply.refuses = true) : settled [(data, reply)] = [] := by
  simp [settled, refused]

theorem settled_taken (taken : reply.refuses = false) : settled [(data, reply)] = [data] := by
  simp [settled, taken]

theorem wants_refuses (wants : reply.wants = true) : reply.refuses = true := by
  cases reply with
  | wantWrite | wantRead => rfl
  | written | zeroReturn | failed => cases wants

theorem recordsOf_cons (packet : Packet) (left : List Packet) :
    recordsOf (packet :: left) = sslRecord (packet.data.getD []) :: recordsOf left := rfl

/-- Nothing is offered, and no socket comes online. -/
theorem Recorded.quiet (recorded : Recorded asked world stock) (offers : offersOf next.out = offersOf world.out)
    (online : next.socket.state = .online → world.socket.state = .online) : Recorded asked next stock := by
  obtain ⟨first, whole, chain, retry⟩ := recorded
  rw [← offers] at first whole chain retry
  exact ⟨first, fun state => whole (online state), chain, retry⟩

/-- Another record waits behind the others. -/
theorem Recorded.queue (recorded : Recorded asked world stock) (online : world.socket.state = .online)
    (holds : packet.data = some data) (offers : offersOf next.out = offersOf world.out) :
    Recorded (asked ++ [sslRecord data]) next (stock ++ [packet]) := by
  have records : recordsOf (stock ++ [packet]) = recordsOf stock ++ [sslRecord data] := by
    rw [recordsOf, List.map_append, List.map_singleton, holds]
    rfl
  have whole : settled (offersOf next.out) ++ recordsOf (stock ++ [packet]) = asked ++ [sslRecord data] := by
    rw [records, offers, ← List.append_assoc, recorded.whole online]
  refine ⟨whole ▸ List.prefix_rfl, fun _ => whole, offers ▸ recorded.chain, ?_⟩
  intro offer last wants
  rw [offers] at last
  rw [records, List.head?_append, recorded.retry offer last wants]
  rfl

/-- The socket is not online, or there is nothing to write. -/
theorem Recorded.refuse (recorded : Recorded asked world stock) (offline : next.socket.state ≠ .online)
    (offers : offersOf next.out = offersOf world.out) (data : List Byte) :
    Recorded (asked ++ [data]) next stock where
  first := offers ▸ recorded.first.trans (List.prefix_append _ _)
  whole := fun online => absurd online offline
  chain := offers ▸ recorded.chain
  retry := offers ▸ recorded.retry

/-- What is offered is the first record that waits, if any waits. -/
theorem Recorded.offer (recorded : Recorded asked world stock) {record : List Byte}
    (fits : ∀ waiting ∈ (recordsOf stock).head?, waiting = record) :
    (offersOf world.out ++ [(record, reply)]).IsChain Retried := by
  rw [List.isChain_append]
  refine ⟨recorded.chain, .singleton _, ?_⟩
  intro earlier last later next wants
  obtain rfl : (record, reply) = later := Option.some.inj next
  exact (fits _ (recorded.retry earlier last wants)).symm

theorem head_record (holds : packet.data = some data) :
    ∀ waiting ∈ (recordsOf (packet :: left)).head?, waiting = sslRecord data := by
  intro waiting first
  rw [recordsOf_cons, holds] at first
  exact (Option.some.inj first).symm

/-- The first record that waits is offered, and waits on. -/
theorem Recorded.offer_refused (recorded : Recorded asked world (packet :: left)) (holds : packet.data = some data)
    (refused : reply.refuses = true) (offers : offersOf next.out = offersOf world.out ++ [(sslRecord data, reply)])
    (online : next.socket.state = .online → world.socket.state = .online) : Recorded asked next (packet :: left) := by
  have same : settled (offersOf next.out) = settled (offersOf world.out) := by
    rw [offers, settled_append, settled_refused refused, List.append_nil]
  refine ⟨same ▸ recorded.first, fun state => same ▸ recorded.whole (online state), ?_, ?_⟩
  · rw [offers]
    exact recorded.offer (head_record holds)
  · intro offer last _
    rw [offers, List.getLast?_concat] at last
    obtain rfl : (sslRecord data, reply) = offer := Option.some.inj last
    rw [recordsOf_cons, holds]
    rfl

/-- The first record that waits is offered, and settled. -/
theorem Recorded.offer_taken (recorded : Recorded asked world (packet :: left)) (holds : packet.data = some data)
    (taken : reply.refuses = false) (offers : offersOf next.out = offersOf world.out ++ [(sslRecord data, reply)])
    (online : next.socket.state = .online → world.socket.state = .online) : Recorded asked next left := by
  have same : settled (offersOf next.out) ++ recordsOf left =
      settled (offersOf world.out) ++ recordsOf (packet :: left) := by
    rw [offers, settled_append, settled_taken taken, recordsOf_cons, holds, List.append_assoc]
    rfl
  refine ⟨same ▸ recorded.first, fun state => same ▸ recorded.whole (online state), ?_, ?_⟩
  · rw [offers]
    exact recorded.offer (head_record holds)
  · intro offer last wants
    rw [offers, List.getLast?_concat] at last
    obtain rfl : (sslRecord data, reply) = offer := Option.some.inj last
    rw [wants_refuses wants] at taken
    cases taken

/-- Nothing waits, and a record is offered at once. -/
theorem Recorded.direct (recorded : Recorded asked world []) (taken : reply.refuses = false)
    (offers : offersOf next.out = offersOf world.out ++ [(sslRecord data, reply)])
    (online : world.socket.state = .online) : Recorded (asked ++ [sslRecord data]) next [] := by
  have whole : settled (offersOf next.out) ++ recordsOf [] = asked ++ [sslRecord data] := by
    have before := recorded.whole online
    rw [show recordsOf [] = [] from rfl, List.append_nil] at before ⊢
    rw [offers, settled_append, settled_taken taken, before]
  refine ⟨whole ▸ List.prefix_rfl, fun _ => whole, ?_, ?_⟩
  · rw [offers]
    exact recorded.offer (by simp [recordsOf])
  · intro offer last wants
    rw [offers, List.getLast?_concat] at last
    obtain rfl : (sslRecord data, reply) = offer := Option.some.inj last
    rw [wants_refuses wants] at taken
    cases taken

theorem Recorded.direct_wanted (recorded : Recorded asked world []) (refused : reply.refuses = true)
    (holds : packet.data = some data) (offers : offersOf next.out = offersOf world.out ++ [(sslRecord data, reply)])
    (online : world.socket.state = .online) : Recorded (asked ++ [sslRecord data]) next [packet] := by
  have waits : recordsOf [packet] = [sslRecord data] := by
    rw [recordsOf_cons, holds]
    rfl
  have whole : settled (offersOf next.out) ++ recordsOf [packet] = asked ++ [sslRecord data] := by
    have before := recorded.whole online
    rw [show recordsOf [] = [] from rfl, List.append_nil] at before
    rw [offers, settled_append, settled_refused refused, List.append_nil, before, waits]
  refine ⟨whole ▸ List.prefix_rfl, fun _ => whole, ?_, ?_⟩
  · rw [offers]
    exact recorded.offer (by simp [recordsOf])
  · intro offer last wants
    rw [offers, List.getLast?_concat] at last
    obtain rfl : (sslRecord data, reply) = offer := Option.some.inj last
    rw [waits]
    rfl

theorem Recorded.direct_failed (recorded : Recorded asked world []) (unwanted : reply.wants = false)
    (refused : reply.refuses = true) (offers : offersOf next.out = offersOf world.out ++ [(sslRecord data, reply)])
    (offline : next.socket.state ≠ .online) : Recorded (asked ++ [sslRecord data]) next [] := by
  have same : settled (offersOf next.out) = settled (offersOf world.out) := by
    rw [offers, settled_append, settled_refused refused, List.append_nil]
  refine ⟨same ▸ recorded.first.trans (List.prefix_append _ _), fun online => absurd online offline, ?_, ?_⟩
  · rw [offers]
    exact recorded.offer (by simp [recordsOf])
  · intro offer last wants
    rw [offers, List.getLast?_concat] at last
    obtain rfl : (sslRecord data, reply) = offer := Option.some.inj last
    cases unwanted.symm.trans wants

end Offers

section Jobs

variable {kernel : Kernel} {ssl : Nat → SslReply} {asked : List (List Byte)} {world : World} {duty : Duty}

/-- Between two turns: what is still in the list stands for the records that wait, and so many turns are left at most. -/
def Unloading (asked : List (List Byte)) (bound : Nat) (doing : DoingJobs) : Prop :=
  match doing.label with
  | .job => ∃ duty, Single doing.world.socket.jobs duty ∧ Recorded asked doing.world duty.stock ∧
      (duty.stock ≠ [] → duty.stock.length + 1 < bound)
  | .rewrite job plist _ => job = 0 ∧ ∃ first left pending, Single doing.world.socket.jobs (.data first) ∧
      Stocked plist left pending ∧ Recorded asked doing.world left ∧ left.length < bound
  | .consume _ _ _ | .sendfile _ _ => False

/-- The socket and its queue between two calls. -/
def Keeping (asked : List (List Byte)) (world : World) : Prop :=
  ∃ duty, Single world.socket.jobs duty ∧ Recorded asked world duty.stock

def Unloaded (asked : List (List Byte)) (result : Except Fault (World × Int)) : Prop :=
  ∃ next ret, result = .ok (next, ret) ∧ Keeping asked next

theorem shutdownNow_offers (world : World) : offersOf (apeSocketShutdownNow world).out = offersOf world.out := by
  obtain ⟨state, events, shut, only⟩ := shutdownNow_kept world
  rw [shut, offersOf_append, offersOf_aside only, List.append_nil]

theorem shutdownNow_offline (world : World) : (apeSocketShutdownNow world).socket.state ≠ .online := by
  unfold apeSocketShutdownNow
  split
  · simp [World.emit]
  · simp [World.emit]
  · simp [World.emit]
  · rename_i offline
    simp [offline]
  · rename_i shut
    simp [shut]

theorem unloading_turn {bound : Nat} {doing : DoingJobs} (unloading : Unloading asked bound doing) :
    (∃ next less, doSecureTurn kernel ssl doing = .again next ∧ less < bound ∧ Unloading asked less next) ∨
      ∃ result, doSecureTurn kernel ssl doing = .done result ∧ Unloaded asked result := by
  rcases doing with ⟨world, njobsdone, label⟩
  cases label with
  | job =>
    obtain ⟨duty, single, recorded, long⟩ := unloading
    rcases @jobTurn_single world duty njobsdone single with
      ⟨listed, rfl, turn⟩ | ⟨packet, left, plist, suffix, pending, rfl, stocked, turn⟩
    · exact .inr ⟨_, turn, world, njobsdone, rfl, .idle listed, single, recorded⟩
    · exact .inl ⟨_, _, turn, long (List.cons_ne_nil _ _), rfl, _, _, _, single, stocked, recorded, Nat.lt_succ_self _⟩
  | rewrite job plist chunks =>
    obtain ⟨rfl, first, left, pending, single, stocked, recorded, long⟩ := unloading
    cases pending with
    | nil =>
      obtain rfl := stocked_empty stocked
      obtain ⟨⟨unused, staffed⟩, -⟩ := single
      obtain ⟨moved, front, turned, ended⟩ := staffed_finish staffed stocked
      obtain ⟨slot, head, empty⟩ := packets_empty stocked.packets
      have turn : doSecureTurn kernel ssl { world, njobsdone, label := .rewrite 0 plist chunks } =
          finishJob (storeList world 0 plist) njobsdone 0 := by
        simp only [doSecureTurn, secureTurn, head, show (plist.node slot).content.data = none from empty]
      refine .inl ⟨_, 0, turn.trans (finishJob_ok turned), long, .idle true, ⟨⟨unused, ended⟩, by simp⟩, ?_, ?_⟩
      · exact recorded.quiet rfl id
      · intro some_left
        exact absurd rfl some_left
    | cons suffix pending =>
      obtain ⟨packet, left, rfl⟩ : ∃ packet more, left = packet :: more := by
        cases left with
        | nil => cases stocked_nil stocked
        | cons packet more => exact ⟨packet, more, rfl⟩
      obtain ⟨slot, data, head, held, carries⟩ := stocked_head stocked
      have content : (plist.node slot).content = packet := held
      let called (reply : SslReply) : World := { world with calls := world.calls + 1 }.emit [.sslWrite data reply]
      have offers : ∀ reply, offersOf (called reply).out = offersOf world.out ++ [(sslRecord data, reply)] :=
        fun reply => offersOf_append _ _
      have kept : ∀ reply, Single (storeList (called reply) 0 plist).socket.jobs (.data (packet :: left)) := by
        obtain ⟨⟨unused, staffed⟩, -⟩ := single
        exact fun reply => ⟨⟨unused, staffed_restock staffed stocked (by simp)⟩, by simp⟩
      obtain ⟨popped, next, moved, rest⟩ := @stocked_pop _ _ _ _ _ stocked slot head { packet with data := none } rfl
      cases reply : ssl world.calls with
      | wantWrite | wantRead =>
        refine .inr ⟨.ok ({ storeList (called (ssl world.calls)) 0 plist with
          socket := { (storeList (called (ssl world.calls)) 0 plist).socket with needWrite := true, wouldBlock := true } }, 0),
          ?_, _, 0, rfl, .data (packet :: left), kept _, ?_⟩
        · simp only [doSecureTurn, secureTurn, head, content, carries.stored, reply]
          rfl
        · exact recorded.offer_refused carries.stored rfl ((offers _).trans (by rw [reply])) id
      | failed =>
        refine .inr ⟨.ok (apeSocketShutdownNow (storeList (called .failed) 0 plist), 0), ?_, _, 0, rfl,
          .data (packet :: left), ?_, ?_⟩
        · simp only [doSecureTurn, secureTurn, head, content, carries.stored, reply]
          rfl
        · exact (shutdownNow_single (storeList (called .failed) 0 plist)).2.symm ▸ kept .failed
        · refine recorded.offer_refused carries.stored rfl ((shutdownNow_offers _).trans (offers .failed)) ?_
          intro online
          exact absurd online (shutdownNow_offline _)
      | written | zeroReturn =>
        let released := (called (ssl world.calls)).emit (apeSocketReleaseData packet.pointer packet.dataType)
        have quiet : offersOf released.out = offersOf (called (ssl world.calls)).out := by
          rw [show released.out = (called _).out ++ _ from rfl, offersOf_append, offersOf_aside (release_aside _ _),
            List.append_nil]
        refine .inl ⟨{ world := released, njobsdone, label := .rewrite 0 popped [] }, left.length + 1, ?_, long, ?_⟩
        · simp only [doSecureTurn, secureTurn, head, content, carries.stored, reply, moved, released, called]
        · exact ⟨rfl, first, left, pending, single, rest,
            recorded.offer_taken carries.stored rfl ((quiet.trans (offers _)).trans (by rw [reply])) id, Nat.lt_succ_self _⟩
  | consume job plist n => exact absurd unloading id
  | sendfile job fd => exact absurd unloading id

theorem Recorded.length (recorded : Recorded asked world duty.stock) : duty.stock.length ≤ asked.length := by
  have within := recorded.first.length_le
  rw [List.length_append, recordsOf, List.length_map] at within
  omega

theorem doJobs_keeping (keeping : Keeping asked world) {fuel : Nat} (enough : asked.length + 2 < fuel) :
    ∃ next, ApeGlobal.doJobs kernel ssl fuel world = .ok next ∧ Keeping asked next := by
  obtain ⟨duty, single, recorded⟩ := keeping
  have short := recorded.length
  have unloading : Unloading asked (asked.length + 2) { world } := ⟨duty, single, recorded, fun _ => by omega⟩
  obtain ⟨result, returned, next, ret, rfl, kept⟩ :=
    loop_within (Unloading asked) (Unloaded asked) (fun _ _ => @unloading_turn kernel ssl asked _ _) unloading enough
  refine ⟨next, ?_, kept⟩
  rw [ApeGlobal.doJobs, apeSocketDoJobsSecure, returned]
  rfl

end Jobs

section Write

variable {ssl : Nat → SslReply} {asked : List (List Byte)} {world : World} {duty : Duty} {data : List Byte}
  {dataType : DataAutorelease}

/-- The data is in the last packet of the queue, whether or not the connection is cut then. -/
theorem queue_records (single : Single world.socket.jobs duty) (object : data.length < 2 ^ 63) (some_data : data ≠ [])
    (dataType : DataAutorelease) :
    ∃ next more packet, apeSocketQueueData world data 0#64 dataType = .ok next ∧ Single next.socket.jobs more ∧
      more.stock = duty.stock ++ [packet] ∧ packet.data = some data ∧ offersOf next.out = offersOf world.out := by
  obtain ⟨⟨unused, staffed⟩, shutdown⟩ := single
  obtain ⟨jobs, front, slot, stock, pending, left, taken, holds, extend, stored⟩ := staffed_takeData staffed
  have inside : (0#64 : SizeT).toNat < data.length := List.length_pos_of_ne_nil some_data
  obtain ⟨plist, stocked, queued⟩ := queueData_stocked taken holds object inside dataType
  have whole : data.drop (0#64 : SizeT).toNat = data := List.drop_zero
  rw [whole] at queued stocked
  obtain ⟨rfl, rfl, rfl⟩ : front = [] ∧ slot = 0 ∧ stock = duty.stock := by
    rcases extend with ⟨other, used, -, rfl⟩ | ⟨rfl, -, before, other, used⟩
    · obtain ⟨rfl, same⟩ := List.append_inj' (show [] ++ [(0, duty)] = front ++ [(slot, other)] from used) rfl
      cases same
      exact ⟨rfl, rfl, rfl⟩
    · obtain ⟨-, same⟩ := List.append_inj' (show [] ++ [(0, duty)] = before ++ [(other, Duty.shutdown)] from used) rfl
      cases same
      exact absurd rfl shutdown
  let next := queuedIn world jobs 0 plist data (world.totalMemoryBuffered + BitVec.ofNat 64 data.length)
  let packet := handedPacket world data 0#64 dataType
  have kept : Single next.socket.jobs (.data (duty.stock ++ [packet])) :=
    ⟨⟨left, stored plist _ _ stocked (by simp)⟩, by simp⟩
  have offers : offersOf next.out = offersOf world.out := (offersOf_append _ _).trans (List.append_nil _)
  by_cases overflows : Overflows next.socket
  · refine ⟨apeSocketShutdownNow next, .data (duty.stock ++ [packet]), packet,
      queued.trans (congrArg Except.ok (if_pos overflows)), ?_, rfl, rfl, (shutdownNow_offers next).trans offers⟩
    exact (shutdownNow_single next).2.symm ▸ kept
  · exact ⟨next, .data (duty.stock ++ [packet]), packet, queued.trans (congrArg Except.ok (if_neg overflows)), kept, rfl,
      rfl, offers⟩

theorem release_offers (world : World) (pointer : DataPointer) (dataType : DataAutorelease) :
    offersOf (world.emit (apeSocketReleaseData pointer dataType)).out = offersOf world.out := by
  rw [show (world.emit _).out = world.out ++ _ from rfl, offersOf_append, offersOf_aside (release_aside _ _),
    List.append_nil]

theorem write_refused (keeping : Keeping asked world) (refused : world.socket.state ≠ .online ∨ data = []) :
    Keeping (asked ++ (if data = [] then [] else [sslRecord data]))
      (world.emit (apeSocketReleaseData (.caller world.handed) (if dataType = .copy then .own else dataType))) := by
  obtain ⟨duty, single, recorded⟩ := keeping
  refine ⟨duty, single, ?_⟩
  split
  · rw [List.append_nil]
    exact recorded.quiet (release_offers world _ _) id
  · rename_i some_data
    have offline : ∀ events, (world.emit events).socket.state ≠ .online := fun _ => refused.resolve_right some_data
    exact recorded.refuse (offline _) (release_offers world _ _) (sslRecord data)

/-- A write is refused, or its record is settled, or it waits behind all others. -/
theorem write_keeping (keeping : Keeping asked world) (object : data.length < 2 ^ 63) (dataType : DataAutorelease) :
    ∃ next ret, apeSocketWriteSecure ssl data dataType world = .ok (next, ret) ∧
      Keeping (asked ++ (if data = [] then [] else [sslRecord data])) next := by
  by_cases refused : world.socket.state ≠ .online ∨ BitVec.ofNat 64 data.length = 0#64
  · have idle : world.socket.state ≠ .online ∨ data = [] := by
      by_contra both
      obtain ⟨online, some_data⟩ := not_or.mp both
      exact refused.elim online (size_ne_zero (List.length_pos_of_ne_nil some_data) object)
    exact ⟨_, -1, by rw [apeSocketWriteSecure, if_pos refused], @write_refused asked world data dataType keeping idle⟩
  obtain ⟨online, nonzero⟩ := not_or.mp refused
  rw [not_not] at online
  have some_data : data ≠ [] := by
    rintro rfl
    exact nonzero rfl
  rw [if_neg some_data]
  obtain ⟨duty, single, recorded⟩ := keeping
  have occupied := single_occupied single
  obtain ⟨⟨unused, staffed⟩, -⟩ := id single
  have head := staffed.head
  rw [show headActive world.socket = (world.socket.jobs.node 0).active by simp only [headActive, head]] at occupied
  rw [apeSocketWriteSecure, if_neg refused]
  simp only [head]
  by_cases held : world.socket.wouldBlock = true ∨ (world.socket.jobs.node 0).active = true
  · obtain ⟨next, more, packet, queued, kept, stock, holds, offers⟩ := queue_records single object some_data dataType
    rw [if_pos held, queued]
    refine ⟨next, _, rfl, more, kept, ?_⟩
    rw [stock]
    exact recorded.queue online holds offers
  · have empty : duty.stock = [] := by
      by_contra some_stock
      exact held (.inr (occupied.mpr some_stock))
    rw [empty] at recorded
    rw [if_neg held]
    let called (reply : SslReply) : World := { world with calls := world.calls + 1 }.emit [.sslWrite data reply]
    have offered : ∀ reply, offersOf (called reply).out = offersOf world.out ++ [(sslRecord data, reply)] :=
      fun reply => offersOf_append _ _
    cases reply : ssl world.calls with
    | wantWrite | wantRead =>
      let blocked (reply : SslReply) : World :=
        { called reply with socket := { (called reply).socket with needWrite := true, wouldBlock := true } }
      obtain ⟨next, more, packet, queued, kept, stock, holds, offers⟩ :=
        @queue_records (blocked (ssl world.calls)) duty data single object some_data dataType
      rw [reply] at queued offers
      refine ⟨next, intOfSize (BitVec.ofNat 64 data.length),
        congrArg (Except.map fun world => (world, intOfSize (BitVec.ofNat 64 data.length))) queued, more, kept, ?_⟩
      rw [stock, empty]
      exact recorded.direct_wanted rfl holds (offers.trans (offered _)) online
    | failed =>
      let released := (called .failed).emit
        (apeSocketReleaseData (.caller world.handed) (if dataType = .copy then .own else dataType))
      refine ⟨apeSocketShutdownNow released, -1, rfl, duty, ?_, ?_⟩
      · exact (shutdownNow_single released).2.symm ▸ single
      · rw [empty]
        exact recorded.direct_failed rfl rfl
          ((shutdownNow_offers released).trans ((release_offers _ _ _).trans (offered _))) (shutdownNow_offline released)
    | written | zeroReturn =>
      refine ⟨_, 0, rfl, duty, single, ?_⟩
      rw [empty]
      exact recorded.direct rfl ((release_offers _ _ _).trans (offered _)) online

end Write

section Run

variable {kernel : Kernel} {ssl : Nat → SslReply} {asked : List (List Byte)} {world : World} {fuel : Nat}

/-- The records that a call asks for. -/
def RecordCall.asks (call : RecordCall) : List (List Byte) := (call.given.map sslRecord).toList

theorem call_keeping (keeping : Keeping asked world) (call : RecordCall) (enough : asked.length + 2 < fuel) :
    ∃ next, world.performSecure kernel ssl fuel call = .ok next ∧ Keeping (asked ++ RecordCall.asks call) next := by
  have calm (other : World) (socket : other.socket.jobs = world.socket.jobs) (out : other.out = world.out)
      (state : other.socket.state = world.socket.state) : Keeping asked other := by
    obtain ⟨duty, single, recorded⟩ := keeping
    refine ⟨duty, socket.symm ▸ single, recorded.quiet (by rw [out]) ?_⟩
    rw [state]
    exact id
  cases call with
  | write data dataType =>
    obtain ⟨next, ret, wrote, kept⟩ := @write_keeping ssl asked world data.bytes keeping data.object dataType
    refine ⟨{ next with handed := next.handed + 1 }, ?_, ?_⟩
    · simp only [World.performSecure, wrote]
      rfl
    · have asks : RecordCall.asks (.write data dataType) = if data.bytes = [] then [] else [sslRecord data.bytes] := by
        simp only [RecordCall.asks, RecordCall.given]
        split <;> rfl
      rw [asks]
      obtain ⟨duty, single, recorded⟩ := kept
      exact ⟨duty, single, recorded.quiet rfl id⟩
  | readable =>
    rw [show RecordCall.asks .readable = [] from rfl, List.append_nil]
    by_cases wanted : world.socket.needWrite = true
    · obtain ⟨next, done, kept⟩ := @doJobs_keeping kernel ssl asked
        { world with socket := { world.socket with needWrite := false } } (calm _ rfl rfl rfl) fuel enough
      exact ⟨next, (if_pos wanted).trans done, kept⟩
    · exact ⟨world, if_neg wanted, keeping⟩
  | writable =>
    rw [show RecordCall.asks .writable = [] from rfl, List.append_nil]
    exact ⟨_, rfl, calm _ rfl rfl rfl⟩
  | doJobs =>
    rw [show RecordCall.asks .doJobs = [] from rfl, List.append_nil]
    exact doJobs_keeping keeping enough

theorem calls_keeping (keeping : Keeping asked world) (calls : List RecordCall)
    (enough : asked.length + calls.length + 2 < fuel) :
    ∃ last, runAll (World.performSecure kernel ssl fuel) world calls = .ok last ∧
      Keeping (asked ++ calls.flatMap RecordCall.asks) last := by
  induction calls generalizing world asked with
  | nil =>
    rw [List.flatMap_nil, List.append_nil]
    exact ⟨world, rfl, keeping⟩
  | cons call calls ih =>
    rw [List.length_cons] at enough
    have one : (RecordCall.asks call).length ≤ 1 := Option.length_toList_le
    obtain ⟨next, performed, kept⟩ := @call_keeping kernel ssl asked world fuel keeping call (by omega)
    obtain ⟨last, ran, ended⟩ := ih kept (by rw [List.length_append]; omega)
    refine ⟨last, ?_, ?_⟩
    · rw [runAll, performed]
      exact ran
    · rw [List.flatMap_cons, ← List.append_assoc]
      exact ended

theorem sslRecord_short {data : List Byte} (short : data.length < 2 ^ 31) : sslRecord data = data := by
  have length : (BitVec.ofNat 32 data.length).toNat = data.length := by
    rw [BitVec.toNat_ofNat]
    omega
  rw [sslRecord, BitVec.toInt_eq_toNat_of_lt (by omega), length, Int.toNat_natCast, List.take_length]

theorem asks_short {calls : List RecordCall} (short : ∀ call ∈ calls, ∀ data ∈ call.given, data.length < 2 ^ 31) :
    calls.flatMap RecordCall.asks = calls.filterMap RecordCall.given := by
  rw [List.filterMap_eq_flatMap_toList]
  apply List.flatMap_congr
  intro call member
  rw [RecordCall.asks]
  cases given : call.given with
  | none => rfl
  | some data =>
    rw [Option.map_some, sslRecord_short (short call member data given)]

end Run

/-- Records are settled in the order in which they were written, none of them twice, and what is not settled yet waits
    while the socket is online; and what OpenSSL wants again is the next thing that it is offered. -/
theorem tls_records_in_order (kernel : Kernel) (ssl : Nat → SslReply) (limit total : SizeT) (calls : List RecordCall)
    (short : ∀ call ∈ calls, ∀ data ∈ call.given, data.length < 2 ^ 31) {fuel : Nat} (enough : calls.length + 2 < fuel) :
    ∃ last, runAll (World.performSecure kernel ssl fuel) (freshSocket limit total) calls = .ok last ∧
      settled (offersOf last.out) ++ waitingRecords last <+: calls.filterMap RecordCall.given ∧
      (last.socket.state = .online →
        settled (offersOf last.out) ++ waitingRecords last = calls.filterMap RecordCall.given) ∧
      (offersOf last.out).IsChain Retried := by
  have fresh : Keeping [] (freshSocket limit total) := by
    refine ⟨.idle false, ⟨⟨_, staffed_init⟩, by simp⟩, List.prefix_rfl, fun _ => rfl, .nil, ?_⟩
    intro offer last
    cases last
  obtain ⟨last, ran, duty, single, recorded⟩ := @calls_keeping kernel ssl [] _ fuel fresh calls (by simpa using enough)
  rw [List.nil_append, asks_short short] at recorded
  have waiting : waitingRecords last = recordsOf duty.stock := congrArg recordsOf single.packets
  refine ⟨last, ran, ?_, ?_, recorded.chain⟩
  · rw [waiting]
    exact recorded.first
  · rw [waiting]
    exact recorded.whole

/-- Wants to read first, and takes everything then. -/
def renegotiating (call : Nat) : SslReply := if call = 0 then .wantRead else .written

/-- The first write is offered again when the socket can be read, and then the second one. -/
theorem tls_records_in_order_renegotiating :
    ∃ last, runAll (World.performSecure hesitant renegotiating 6) (freshSocket 0 0)
        [.write twoBytes .static, .write twoBytes .copy, .readable] = .ok last ∧
      settled (offersOf last.out) ++ waitingRecords last <+: [twoBytes.bytes, twoBytes.bytes] ∧
      (last.socket.state = .online →
        settled (offersOf last.out) ++ waitingRecords last = [twoBytes.bytes, twoBytes.bytes]) ∧
      (offersOf last.out).IsChain Retried :=
  tls_records_in_order hesitant renegotiating 0 0 [.write twoBytes .static, .write twoBytes .copy, .readable]
    (by decide) (by decide)

end ZapeProof
