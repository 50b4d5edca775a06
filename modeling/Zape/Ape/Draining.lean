import Zape.Ape.Flushing

/-! `ape_socket_do_jobs` takes off the packet list what `writev` accepted. -/
namespace ZapeProof

open Machine ZapeModel

/-- In the middle of the only job: so many of the pending bytes were accepted, and are still in the list. -/
structure Sending (world : World) (plist : PoolList Packet) (pending : List (List Byte)) (taken : Nat) : Prop where
  head : world.socket.jobs.head = some 0
  current : world.socket.jobs.current = some 0
  flags : (world.socket.jobs.node 0).flags = activeFlags
  packets : Packets plist pending
  inside : taken ≤ pending.flatten.length
  bytes : world.socket.currentBufferMemoryBytes = BitVec.ofNat 64 (pending.flatten.length - taken)
  total : flushed world.out ++ pending.flatten.drop taken = (queuedSuffixes world.out).flatten

/-- The packet list that a turn of `ape_socket_do_jobs` starts with. -/
def packetList (doing : DoingJobs) : Option (PoolList Packet) :=
  match doing.label with
  | .rewrite _ plist _ | .consume _ plist _ => some plist
  | .job | .sendfile _ _ =>
    match doing.world.socket.jobs.head.map fun job => (doing.world.socket.jobs.node job).content with
    | some (.data plist) => some plist
    | _ => none

def heldIn (doing : DoingJobs) : List Byte := ((packetList doing).map heldBytes).getD []

/-- The packet list holds these byte sequences, or there is none yet. -/
def Lists (doing : DoingJobs) (pending : List (List Byte)) : Prop :=
  (packetList doing = none ∧ pending = []) ∨ ∃ plist, packetList doing = some plist ∧ Packets plist pending

/-- What holds whenever a turn of `ape_socket_do_jobs` starts. -/
def Doing (maxChunks : Nat) (doing : DoingJobs) : Prop :=
  match doing.label with
  | .job => ∃ pending, Balanced doing.world pending
  | .rewrite job plist chunks => job = 0 ∧ ∃ pending, Sending doing.world plist pending 0 ∧ pending ≠ [] ∧
      chunks = pending.take maxChunks
  | .consume job plist n => job = 0 ∧ ∃ pending taken, Sending doing.world plist pending taken ∧ 0 < taken ∧
      taken < 2 ^ 63 ∧ n = BitVec.ofNat 64 taken
  | .sendfile _ _ => False

section Turns

variable {kernel : Kernel} {maxChunks : Nat} {world : World} {plist : PoolList Packet} {pending : List (List Byte)}
  {suffix : List Byte} {taken : Nat} {njobsdone : Nat}

theorem Sending.congr {next : World} (sending : Sending world plist pending taken)
    (jobs : next.socket.jobs = world.socket.jobs)
    (bytes : next.socket.currentBufferMemoryBytes = world.socket.currentBufferMemoryBytes)
    (flush : flushed next.out = flushed world.out) (queue : queuedSuffixes next.out = queuedSuffixes world.out) :
    Sending next plist pending taken :=
  { head := by rw [jobs, sending.head], current := by rw [jobs, sending.current], flags := by rw [jobs, sending.flags],
    packets := sending.packets, inside := sending.inside, bytes := bytes.trans sending.bytes,
    total := by rw [flush, queue, sending.total] }

theorem Sending.move {list : PoolList Packet} {others : List (List Byte)} {count : Nat}
    (sending : Sending world plist pending taken) (packets : Packets list others)
    (same : others.flatten.drop count = pending.flatten.drop taken) (inside : count ≤ others.flatten.length) :
    Sending world list others count :=
  { head := sending.head, current := sending.current, flags := sending.flags, packets, inside,
    bytes := by
      rw [sending.bytes, ← List.length_drop, ← List.length_drop, same]
    total := by rw [same, sending.total] }

theorem Sending.balanced (sending : Sending world plist pending 0) (some_pending : pending ≠ []) :
    Balanced (storeList world 0 plist) pending where
  waiting :=
    { head := sending.head, current := sending.current,
      holds := .inr ⟨plist, by simp [storeList, PoolList.setContent, PoolList.modify], sending.packets⟩,
      flags := by
        rw [if_neg some_pending, ← sending.flags]
        simp [storeList, PoolList.setContent, PoolList.modify]
      bytes := sending.bytes }
  total := sending.total

theorem finishJob_empty (sending : Sending world plist [] 0) :
    ∃ next, finishJob (storeList world 0 plist) njobsdone 0 = .again { world := next, njobsdone := njobsdone + 1 } ∧
      Balanced next [] := by
  let list := (storeList world 0 plist).socket.jobs
  let ended := list.setFlags 0 ((list.node 0).flags &&& ~~~apeSocketJobActive)
  have same : ended.head = ended.current := sending.head.trans sending.current.symm
  refine ⟨{ world with socket := { world.socket with jobs := ended } }, ?_, ?_⟩
  · have stays : apePoolHeadToCurrent ended = .ok (ended, ended.head) := by rw [apePoolHeadToCurrent, if_pos same]
    exact finishJob_ok stays
  · refine { waiting := ?_, total := sending.total }
    refine { head := sending.head, current := sending.current, holds := .inr ⟨plist, ?_, sending.packets⟩,
             flags := .inr ?_, bytes := sending.bytes }
    · simp [ended, list, storeList, PoolList.setContent, PoolList.setFlags, PoolList.modify]
    · have flags := sending.flags
      simp [ended, list, storeList, PoolList.setContent, PoolList.setFlags, PoolList.modify, flags]
      decide

theorem Lists.held {doing : DoingJobs} (lists : Lists doing pending) : heldIn doing = pending.flatten := by
  rcases lists with ⟨none, rfl⟩ | ⟨plist, list, packets⟩
  · rw [heldIn, none]
    rfl
  · rw [heldIn, list, ← held_packets packets]
    rfl

theorem lists_job (balanced : Balanced world pending) : Lists { world, njobsdone } pending := by
  have head := balanced.waiting.head
  rcases balanced.waiting.holds with ⟨null, rfl⟩ | ⟨plist, list, packets⟩
  · exact .inl ⟨by simp only [packetList, head, Option.map_some, null], rfl⟩
  · exact .inr ⟨plist, by simp only [packetList, head, Option.map_some, list], packets⟩

theorem afterPackets_cases (packets : Packets plist pending) (world : World) (njobsdone job : Nat) :
    (pending = [] ∧ afterPackets maxChunks world njobsdone job plist =
        finishJob (storeList world job plist) njobsdone job) ∨
      pending ≠ [] ∧ afterPackets maxChunks world njobsdone job plist =
        .again { world, njobsdone, label := .rewrite job plist (pending.take maxChunks) } := by
  cases pending with
  | nil =>
    obtain ⟨slot, head, none⟩ := packets_empty packets
    have released : (plist.node slot).content.data = Option.none := none
    refine .inl ⟨rfl, ?_⟩
    rw [afterPackets, head]
    simp only [released, ite_true]
  | cons suffix pending =>
    obtain ⟨slot, data, head, carries⟩ := packets_head packets
    have stored : (plist.node slot).content.data = some data := carries.stored
    refine .inr ⟨List.cons_ne_nil suffix pending, ?_⟩
    rw [afterPackets, head]
    simp only [stored, reduceCtorEq, ite_false]
    rw [← head, gather_packets packets]

theorem afterPackets_again (sending : Sending world plist pending 0) :
    ∃ next, afterPackets maxChunks world njobsdone 0 plist = .again next ∧ Doing maxChunks next ∧
      heldIn next = pending.flatten := by
  rcases @afterPackets_cases maxChunks plist pending sending.packets world njobsdone 0 with
    ⟨rfl, after⟩ | ⟨some_pending, after⟩
  · obtain ⟨next, finished, balanced⟩ := @finishJob_empty world plist njobsdone sending
    exact ⟨_, after.trans finished, ⟨[], balanced⟩, (lists_job balanced).held⟩
  · exact ⟨_, after, ⟨rfl, pending, sending, some_pending, rfl⟩, held_packets sending.packets⟩

theorem packets_offered {maxChunks : Nat} (packets : Packets plist pending) (some_pending : pending ≠ [])
    (some_chunks : 0 < maxChunks) : 0 < (pending.take maxChunks).flatten.length := by
  cases pending with
  | nil => exact absurd rfl some_pending
  | cons suffix pending =>
    obtain ⟨_, _, -, carries⟩ := packets_head packets
    obtain ⟨maxChunks, rfl⟩ : ∃ rest, maxChunks = rest + 1 := ⟨maxChunks - 1, by omega⟩
    have positive := carries.positive
    simp only [List.take_succ_cons, List.flatten_cons, List.length_append]
    omega

theorem flatten_split : pending.flatten = (pending.take maxChunks).flatten ++ (pending.drop maxChunks).flatten := by
  rw [← List.flatten_append, List.take_append_drop]

theorem take_flatten_take {count : Nat} (inside : count ≤ (pending.take maxChunks).flatten.length) :
    (pending.take maxChunks).flatten.take count = pending.flatten.take count := by
  rw [@flatten_split maxChunks pending, List.take_append_of_le_length inside]

theorem flushed_refused {reply : Reply} (refused : ∀ count, reply ≠ .accepted count) (chunks : List (List Byte)) :
    flushed [.writev chunks reply] = [] := by
  cases reply with
  | accepted count => exact absurd rfl (refused count)
  | again | interrupted | failed => rfl

/-- What is left of the packets when so many bytes were taken from the first of them. -/
structure Left (pending others : List (List Byte)) (taken rest : Nat) : Prop where
  same : others.flatten.drop rest = pending.flatten.drop taken
  inside : rest ≤ others.flatten.length
  fewer : others.flatten.length < pending.flatten.length

/-- What one turn of the loop over the packets leaves of them, and what it releases: the first one is cut, or taken off. -/
def Consumed (stock left : List Packet) (freed : List SocketEvent) : Prop :=
  ∃ first more, stock = first :: more ∧
    ((∃ offset, left = { first with offset } :: more ∧ freed = []) ∨
      left = more ∧ freed = apeSocketReleaseData first.pointer first.dataType)

theorem Consumed.frees {stock left : List Packet} {freed : List SocketEvent} (consumed : Consumed stock left freed) :
    OnlyFrees freed := by
  obtain ⟨first, more, -, ⟨offset, -, rfl⟩ | ⟨-, rfl⟩⟩ := consumed
  · simp [OnlyFrees]
  · exact release_free _ _

/-- One turn of the loop over the packets, whatever the job list looks like: the head packet is cut, or it is taken off
    the list and the loop ends or goes on. -/
theorem consume_stocked {stock : List Packet} (stocked : Stocked plist stock pending)
    (inside : taken ≤ pending.flatten.length) (positive : 0 < taken)
    (small : taken < 2 ^ 63) (world : World) (njobsdone job : Nat) :
    ∃ list more others rest freed, Stocked list more others ∧ Left pending others taken rest ∧ Consumed stock more freed ∧
      ((rest = 0 ∧ consumeTurn maxChunks world njobsdone job plist (BitVec.ofNat 64 taken) =
          afterPackets maxChunks (world.emit freed) njobsdone job list) ∨
        0 < rest ∧ rest < 2 ^ 63 ∧ consumeTurn maxChunks world njobsdone job plist (BitVec.ofNat 64 taken) =
          .again { world := world.emit freed, njobsdone, label := .consume job list (BitVec.ofNat 64 rest) }) := by
  cases pending with
  | nil => exact absurd inside (by simp; omega)
  | cons suffix pending =>
    obtain ⟨first, more, rfl⟩ : ∃ first more, stock = first :: more := by
      obtain ⟨filled, spare, rest, slots, rfl⟩ := stocked
      rcases slots.carries with _ | _
      exact ⟨_, _, List.map_cons⟩
    obtain ⟨slot, data, head, rfl, carries⟩ := stocked_head stocked
    have stored : (plist.node slot).content.data = some data := carries.stored
    have remaining : (plist.node slot).content.len - (plist.node slot).content.offset = BitVec.ofNat 64 suffix.length :=
      carries.remaining
    have short := carries.short
    have filled := carries.positive
    rw [List.flatten_cons, List.length_append] at inside
    by_cases part : taken < suffix.length
    · have cut := stocked_replace stocked head (carries.advance part)
      have nothing : world.emit [] = world := by simp [World.emit]
      refine ⟨_, _, suffix.drop taken :: pending, 0, [], cut, { same := ?_, inside := Nat.zero_le _, fewer := ?_ },
        ⟨_, more, rfl, .inl ⟨_, rfl, rfl⟩⟩, .inl ⟨rfl, ?_⟩⟩
      · rw [List.drop_zero, List.flatten_cons, List.flatten_cons, List.drop_append_of_le_length (by omega)]
      · simp only [List.flatten_cons, List.length_append, List.length_drop]
        omega
      · rw [consumeTurn, head, nothing]
        simp only [stored, remaining, sub_size_slt small short, decide_eq_true part, ite_true]
        rw [← stored]
        rfl
    · have whole : suffix.length ≤ taken := by omega
      let released : Packet := { (plist.node slot).content with data := none }
      obtain ⟨list, first, popped, moved⟩ := stocked_pop stocked head (show released.data = none from rfl)
      let freed := apeSocketReleaseData (plist.node slot).content.pointer (plist.node slot).content.dataType
      have less : BitVec.ofNat 64 taken - BitVec.ofNat 64 suffix.length = BitVec.ofNat 64 (taken - suffix.length) :=
        BitVec.ofNat_sub_ofNat_of_le taken suffix.length (by omega) whole
      have turn : consumeTurn maxChunks world njobsdone job plist (BitVec.ofNat 64 taken) =
          if BitVec.ofNat 64 (taken - suffix.length) = 0#64 then afterPackets maxChunks (world.emit freed) njobsdone job list
          else .again { world := world.emit freed, njobsdone,
                        label := .consume job list (BitVec.ofNat 64 (taken - suffix.length)) } := by
        rw [consumeTurn, head]
        simp only [stored, remaining, sub_size_slt small short, decide_eq_false part, Bool.false_eq_true, ite_false]
        rw [show apePoolHeadToQueue (plist.setContent slot { (plist.node slot).content with data := none }) =
          .ok (list, first) from popped, less]
      refine ⟨list, more, pending, taken - suffix.length, freed, moved, { same := ?_, inside := by omega, fewer := ?_ },
        ⟨_, more, rfl, .inr ⟨rfl, rfl⟩⟩, ?_⟩
      · rw [List.flatten_cons, List.drop_append, List.drop_eq_nil_of_le whole, List.nil_append]
      · rw [List.flatten_cons, List.length_append]
        omega
      · rw [turn]
        by_cases all : taken = suffix.length
        · exact .inl ⟨by omega, if_pos (by rw [all, Nat.sub_self])⟩
        · exact .inr ⟨by omega, by omega, if_neg (size_ne_zero (by omega) (by omega))⟩

theorem consume_packets (packets : Packets plist pending) (inside : taken ≤ pending.flatten.length) (positive : 0 < taken)
    (small : taken < 2 ^ 63) (world : World) (njobsdone job : Nat) :
    ∃ list others rest freed, Packets list others ∧ Left pending others taken rest ∧ OnlyFrees freed ∧
      ((rest = 0 ∧ consumeTurn maxChunks world njobsdone job plist (BitVec.ofNat 64 taken) =
          afterPackets maxChunks (world.emit freed) njobsdone job list) ∨
        0 < rest ∧ rest < 2 ^ 63 ∧ consumeTurn maxChunks world njobsdone job plist (BitVec.ofNat 64 taken) =
          .again { world := world.emit freed, njobsdone, label := .consume job list (BitVec.ofNat 64 rest) }) := by
  obtain ⟨stock, stocked⟩ := packets.stocked
  obtain ⟨list, more, others, rest, freed, left, same, consumed, turned⟩ :=
    @consume_stocked maxChunks plist pending taken stock stocked inside positive small world njobsdone job
  exact ⟨list, others, rest, freed, left.packets, same, consumed.frees, turned⟩

/-- In the only job, a turn of the loop over the packets leaves fewer of them. -/
theorem consume_turn (sending : Sending world plist pending taken) (positive : 0 < taken) (small : taken < 2 ^ 63) :
    ∃ next, consumeTurn maxChunks world njobsdone 0 plist (BitVec.ofNat 64 taken) = .again next ∧
      Doing maxChunks next ∧ (heldIn next).length < pending.flatten.length := by
  obtain ⟨list, others, rest, freed, packets, left, frees, turned⟩ :=
    @consume_packets maxChunks plist pending taken sending.packets sending.inside positive small world njobsdone 0
  have only : ∀ event ∈ freed, aside event = true := frees_aside frees
  have emitted : Sending (world.emit freed) plist pending taken := by
    refine sending.congr (show (world.emit freed).socket.jobs = _ from rfl) rfl ?_ ?_
    · show flushed (world.out ++ freed) = _
      rw [flushed_append, flushed_aside only, List.append_nil]
    · show queuedSuffixes (world.out ++ freed) = _
      rw [queuedSuffixes_append, queuedSuffixes_aside only, List.append_nil]
  have moved := emitted.move packets left.same left.inside
  rcases turned with ⟨rfl, turn⟩ | ⟨more, fits, turn⟩
  · obtain ⟨next, after, kept, held⟩ := @afterPackets_again maxChunks _ _ _ njobsdone moved
    exact ⟨next, turn.trans after, kept, held ▸ left.fewer⟩
  · refine ⟨_, turn, ⟨rfl, others, rest, moved, more, fits, rfl⟩, ?_⟩
    show (heldBytes list).length < _
    rw [held_packets packets]
    exact left.fewer

theorem jobTurn_starts {job : Nat} (head : world.socket.jobs.head = some job)
    (flags : (world.socket.jobs.node job).flags = activeFlags)
    (content : (world.socket.jobs.node job).content = .data plist) (packets : Packets plist pending) :
    jobTurn maxChunks world njobsdone =
      .again { world, njobsdone, label := .rewrite job plist (pending.take maxChunks) } := by
  have active : (world.socket.jobs.node job).active = true := by
    rw [PoolNode.active, flags]
    decide
  have type : activeFlags &&& ~~~(apePoolAllFlags ||| apeSocketJobActive) = apeSocketJobWritev := by decide
  simp only [jobTurn, head, active, flags, type, content, Bool.not_true, Bool.false_eq_true, ite_false, ite_true]
  rw [gather_packets packets]

theorem jobTurn_idle {job : Nat} (head : world.socket.jobs.head = some job)
    (inactive : (world.socket.jobs.node job).active = false) :
    jobTurn maxChunks world njobsdone = .done (.ok (world, njobsdone)) := by
  simp only [jobTurn, head, inactive, Bool.not_false, ite_true]

theorem job_turn (balanced : Balanced world pending) :
    (∃ plist chunks, jobTurn maxChunks world njobsdone = .again { world, njobsdone, label := .rewrite 0 plist chunks } ∧
        Sending world plist pending 0 ∧ pending ≠ [] ∧ chunks = pending.take maxChunks) ∨
      pending = [] ∧ jobTurn maxChunks world njobsdone = .done (.ok (world, njobsdone)) := by
  have head := balanced.waiting.head
  rcases JobFlags.busy balanced.waiting.flags balanced.waiting.holds with
    ⟨none, inactive⟩ | ⟨some_pending, flags, plist, list, packets⟩
  · exact .inr ⟨none, jobTurn_idle head inactive⟩
  · refine .inl ⟨plist, _, jobTurn_starts head flags list packets, ?_, some_pending, rfl⟩
    exact { head, current := balanced.waiting.current, flags, packets, inside := Nat.zero_le _,
            bytes := balanced.waiting.bytes, total := balanced.total }

theorem rewrite_turn (sending : Sending world plist pending 0) (some_pending : pending ≠ []) (some_chunks : 0 < maxChunks) :
    let turn := rewriteTurn kernel world njobsdone 0 plist (pending.take maxChunks)
    let reply := kernel.reply world.calls (pending.take maxChunks).flatten.length
    (∃ next, turn = .again next ∧ Doing maxChunks next ∧ heldIn next = pending.flatten ∧
        ((∃ n, next.label = .consume 0 plist n) ∨
          reply = .interrupted ∧ next.world.calls = world.calls + 1 ∧
            next.label = .rewrite 0 plist (pending.take maxChunks))) ∨
      ∃ next ret more, turn = .done (.ok (next, ret)) ∧ Balanced next more := by
  intro turn reply
  have held := held_packets sending.packets
  let called : World := { world with calls := world.calls + 1 }.emit [.writev (pending.take maxChunks) reply]
  have queue : queuedSuffixes called.out = queuedSuffixes world.out := by
    simp [called, World.emit, queuedSuffixes]
  have flush : (∀ count, reply ≠ .accepted count) → flushed called.out = flushed world.out := by
    intro refused
    show flushed (world.out ++ _) = _
    rw [flushed_append, flushed_refused refused, List.append_nil]
  cases answer : reply with
  | again =>
    have same : Sending called plist pending 0 := sending.congr rfl rfl (flush (by simp [answer])) queue
    have turned : turn = .done (.ok ({ storeList called 0 plist with
        socket := { (storeList called 0 plist).socket with wouldBlock := true } }, 0)) := by
      simp only [turn, rewriteTurn, show kernel.reply _ _ = _ from answer, called, reply]
    exact .inr ⟨_, _, pending, turned, (same.balanced some_pending).log rfl rfl rfl rfl⟩
  | failed =>
    have same : Sending called plist pending 0 := sending.congr rfl rfl (flush (by simp [answer])) queue
    have turned : turn = .done (.ok (apeSocketShutdownNow (storeList called 0 plist), -1)) := by
      simp only [turn, rewriteTurn, show kernel.reply _ _ = _ from answer, called, reply]
    exact .inr ⟨_, _, pending, turned, balanced_shutdownNow (same.balanced some_pending)⟩
  | interrupted =>
    have same : Sending called plist pending 0 := sending.congr rfl rfl (flush (by simp [answer])) queue
    have turned : turn = .again { world := called, njobsdone, label := .rewrite 0 plist (pending.take maxChunks) } := by
      simp only [turn, rewriteTurn, show kernel.reply _ _ = _ from answer, called, reply]
    exact .inl ⟨_, turned, ⟨rfl, pending, same, some_pending, rfl⟩, held, .inr ⟨rfl, rfl, rfl⟩⟩
  | accepted count =>
    obtain ⟨inside, short, positive⟩ := kernel.honest _ _ _ answer
    have some_bytes := positive (packets_offered sending.packets some_pending some_chunks)
    have fewer : (pending.take maxChunks).flatten.length ≤ pending.flatten.length := by
      rw [@flatten_split maxChunks pending, List.length_append]
      omega
    let next : World :=
      { called with
        socket := { called.socket with
          currentBufferMemoryBytes := called.socket.currentBufferMemoryBytes - BitVec.ofNat 64 count }
        totalMemoryBuffered := called.totalMemoryBuffered - BitVec.ofNat 64 count }
    have turned : turn = .again { world := next, njobsdone, label := .consume 0 plist (BitVec.ofNat 64 count) } := by
      simp only [turn, rewriteTurn, show kernel.reply _ _ = _ from answer, called, reply, next]
    have taking : Sending next plist pending count :=
      { head := sending.head, current := sending.current, flags := sending.flags, packets := sending.packets,
        inside := by omega,
        bytes := by
          show world.socket.currentBufferMemoryBytes - BitVec.ofNat 64 count = _
          rw [sending.bytes, Nat.sub_zero, BitVec.ofNat_sub_ofNat_of_le _ _ (by omega) (by omega)]
        total := by
          have accepted : flushed called.out = flushed world.out ++ pending.flatten.take count := by
            show flushed (world.out ++ _) = _
            rw [flushed_append, ← take_flatten_take inside]
            simp [flushed, answer]
          show flushed called.out ++ _ = (queuedSuffixes called.out).flatten
          rw [accepted, queue, List.append_assoc, List.take_append_drop, ← sending.total, List.drop_zero] }
    exact .inl ⟨_, turned, ⟨rfl, pending, count, taking, some_bytes, short, rfl⟩, held, .inl ⟨_, rfl⟩⟩

end Turns

end ZapeProof
