import Zape.Ape.Draining

/-! One `WRITEV` job of `ape_socket_do_jobs`, whatever other jobs wait behind it. -/
namespace ZapeProof

open Machine ZapeModel

/-- A call after which the socket is given up. -/
def ioError : SocketEvent → Bool
  | .write _ _ .interrupted | .write _ _ .failed | .writev _ .failed => true
  | _ => false

/-- A property of what was observed that the job keeps, as long as it offers what follows in these bytes. -/
structure Keeps (good : List SocketEvent → Prop) (total : List Byte) : Prop where
  frees : ∀ out freed, OnlyFrees freed → good out → good (out ++ freed)
  offers : ∀ out chunks reply, good out → flushed out ++ chunks.flatten <+: total →
    good (out ++ [.writev chunks reply])

/-- In the middle of the job: so many of the pending bytes were accepted, and are still in the list. -/
structure Offering (good : List SocketEvent → Prop) (total : List Byte) (base : ApeSocket) (world : World)
    (plist : PoolList Packet) (pending : List (List Byte)) (taken : Nat) : Prop where
  socket : ∃ bytes, world.socket = { base with currentBufferMemoryBytes := bytes }
  packets : Packets plist pending
  inside : taken ≤ pending.flatten.length
  total : flushed world.out ++ pending.flatten.drop taken = total
  good : good world.out

section Job

variable {kernel : Kernel} {maxChunks : Nat} {good : List SocketEvent → Prop} {total : List Byte} {base : ApeSocket}
  {job njobsdone : Nat} {world : World} {plist : PoolList Packet} {pending : List (List Byte)} {taken : Nat}

/-- What holds at every turn of the job. -/
def During (maxChunks : Nat) (good : List SocketEvent → Prop) (total : List Byte) (base : ApeSocket)
    (job njobsdone : Nat) (doing : DoingJobs) : Prop :=
  doing.njobsdone = njobsdone ∧
    match doing.label with
    | .rewrite here plist chunks => here = job ∧ ∃ pending, Offering good total base doing.world plist pending 0 ∧
        pending ≠ [] ∧ chunks = pending.take maxChunks
    | .consume here plist n => here = job ∧ ∃ pending taken, Offering good total base doing.world plist pending taken ∧
        0 < taken ∧ taken < 2 ^ 63 ∧ n = BitVec.ofNat 64 taken
    | .job | .sendfile _ _ => False

def Stopped (good : List SocketEvent → Prop) (total : List Byte) (base : ApeSocket) (job : Nat)
    (result : Except Fault (World × Int)) : Prop :=
  ∃ next ret, result = .ok (next, ret) ∧ ((∃ event ∈ next.out, ioError event = true) ∨
    ∃ world plist pending, Offering good total base world plist pending 0 ∧ pending ≠ [] ∧
      next = { storeList world job plist with
        socket := { (storeList world job plist).socket with wouldBlock := true } })

def Finishes (good : List SocketEvent → Prop) (total : List Byte) (base : ApeSocket) (job njobsdone : Nat)
    (exit : DoingJobs → Prop) : Prop :=
  ∀ world plist, Offering good total base world plist [] 0 →
    ∃ next, finishJob (storeList world job plist) njobsdone job = .again next ∧ exit next

theorem Offering.log (keeps : Keeps good total) (offering : Offering good total base world plist pending taken)
    {freed : List SocketEvent} (frees : OnlyFrees freed) :
    Offering good total base (world.emit freed) plist pending taken := by
  have only : ∀ event ∈ freed, aside event = true := frees_aside frees
  refine { socket := offering.socket, packets := offering.packets, inside := offering.inside, total := ?_, good := ?_ }
  · show flushed (world.out ++ freed) ++ _ = _
    rw [flushed_append, flushed_aside only, List.append_nil]
    exact offering.total
  · exact keeps.frees _ _ frees offering.good

theorem offering_after {exit : DoingJobs → Prop} (finishes : Finishes good total base job njobsdone exit)
    (offering : Offering good total base world plist pending 0) :
    ∃ next, afterPackets maxChunks world njobsdone job plist = .again next ∧
      (During maxChunks good total base job njobsdone next ∨ exit next) := by
  rcases @afterPackets_cases maxChunks plist pending offering.packets world njobsdone job with
    ⟨rfl, after⟩ | ⟨some_pending, after⟩
  · obtain ⟨next, finished, exits⟩ := finishes world plist offering
    exact ⟨next, after.trans finished, .inr exits⟩
  · exact ⟨_, after, .inl ⟨rfl, rfl, pending, offering, some_pending, rfl⟩⟩

theorem offering_consume (keeps : Keeps good total) {exit : DoingJobs → Prop}
    (finishes : Finishes good total base job njobsdone exit)
    (offering : Offering good total base world plist pending taken) (positive : 0 < taken) (small : taken < 2 ^ 63) :
    ∃ next, consumeTurn maxChunks world njobsdone job plist (BitVec.ofNat 64 taken) = .again next ∧
      (During maxChunks good total base job njobsdone next ∨ exit next) := by
  obtain ⟨list, others, rest, freed, packets, left, frees, turned⟩ :=
    @consume_packets maxChunks plist pending taken offering.packets offering.inside positive small world njobsdone job
  have logged := offering.log keeps frees
  have moved : Offering good total base (world.emit freed) list others rest :=
    { socket := logged.socket, packets, inside := left.inside, total := by rw [left.same, logged.total],
      good := logged.good }
  rcases turned with ⟨rfl, turn⟩ | ⟨more, fits, turn⟩
  · obtain ⟨next, after, reached⟩ := @offering_after maxChunks _ _ _ _ _ _ _ _ _ finishes moved
    exact ⟨next, turn.trans after, reached⟩
  · exact ⟨_, turn, .inl ⟨rfl, rfl, others, rest, moved, more, fits, rfl⟩⟩

theorem offering_rewrite (keeps : Keeps good total) (some_chunks : 0 < maxChunks)
    (offering : Offering good total base world plist pending 0) (some_pending : pending ≠ []) :
    (∃ next, rewriteTurn kernel world njobsdone job plist (pending.take maxChunks) = .again next ∧
        During maxChunks good total base job njobsdone next) ∨
      ∃ result, rewriteTurn kernel world njobsdone job plist (pending.take maxChunks) = .done result ∧
        Stopped good total base job result := by
  obtain ⟨bytes, socket⟩ := offering.socket
  have first : flushed world.out ++ (pending.take maxChunks).flatten <+: total := by
    rw [← offering.total, List.drop_zero, @flatten_split maxChunks pending, ← List.append_assoc]
    exact List.prefix_append _ _
  let reply := kernel.reply world.calls (pending.take maxChunks).flatten.length
  let called : World := { world with calls := world.calls + 1 }.emit [.writev (pending.take maxChunks) reply]
  have logged : good called.out := keeps.offers _ _ reply offering.good first
  have refused : (∀ count, reply ≠ .accepted count) → Offering good total base called plist pending 0 := by
    intro none
    refine { socket := ⟨bytes, socket⟩, packets := offering.packets, inside := offering.inside, total := ?_,
             good := logged }
    show flushed (world.out ++ _) ++ _ = _
    rw [flushed_append, flushed_refused none, List.append_nil]
    exact offering.total
  cases answer : reply with
  | again =>
    have stays := refused (by simp [answer])
    refine .inr ⟨_, ?_, _, 0, rfl, .inr ⟨called, plist, pending, stays, some_pending, rfl⟩⟩
    simp only [rewriteTurn, show kernel.reply _ _ = _ from answer, called, reply]
  | interrupted =>
    have stays := refused (by simp [answer])
    refine .inl ⟨{ world := called, njobsdone, label := .rewrite job plist (pending.take maxChunks) }, ?_, rfl, rfl,
      pending, stays, some_pending, rfl⟩
    simp only [rewriteTurn, show kernel.reply _ _ = _ from answer, called, reply]
  | failed =>
    have turned : rewriteTurn kernel world njobsdone job plist (pending.take maxChunks) =
        .done (.ok (apeSocketShutdownNow (storeList called job plist), -1)) := by
      simp only [rewriteTurn, show kernel.reply _ _ = _ from answer, called, reply]
    obtain ⟨state, events, shut, -⟩ := shutdownNow_kept (storeList called job plist)
    refine .inr ⟨_, turned, _, -1, rfl, .inl ⟨.writev (pending.take maxChunks) .failed, ?_, rfl⟩⟩
    have out : (storeList called job plist).out = world.out ++ [.writev (pending.take maxChunks) .failed] := by
      rw [← answer]
      rfl
    rw [shut, out]
    simp
  | accepted count =>
    obtain ⟨inside, short, positive⟩ := kernel.honest _ _ _ answer
    have some_bytes := positive (packets_offered offering.packets some_pending some_chunks)
    have fewer : (pending.take maxChunks).flatten.length ≤ pending.flatten.length := by
      rw [@flatten_split maxChunks pending, List.length_append]
      omega
    let next : World :=
      { called with
        socket := { called.socket with
          currentBufferMemoryBytes := called.socket.currentBufferMemoryBytes - BitVec.ofNat 64 count }
        totalMemoryBuffered := called.totalMemoryBuffered - BitVec.ofNat 64 count }
    have turned : rewriteTurn kernel world njobsdone job plist (pending.take maxChunks) =
        .again { world := next, njobsdone, label := .consume job plist (BitVec.ofNat 64 count) } := by
      simp only [rewriteTurn, show kernel.reply _ _ = _ from answer, called, reply, next]
    have taking : Offering good total base next plist pending count :=
      { socket := ⟨bytes - BitVec.ofNat 64 count, by simp only [next, called, World.emit, socket]⟩
        packets := offering.packets
        inside := by omega
        total := by
          show flushed (world.out ++ [.writev (pending.take maxChunks) reply]) ++ _ = _
          rw [flushed_append, ← offering.total, List.drop_zero, answer, List.append_assoc]
          congr 1
          have accepted : flushed [.writev (pending.take maxChunks) (.accepted count)] = pending.flatten.take count := by
            rw [← take_flatten_take inside]
            simp [flushed]
          rw [accepted, List.take_append_drop]
        good := logged }
    exact .inl ⟨_, turned, rfl, rfl, pending, count, taking, some_bytes, short, rfl⟩

/-- The job stops, or it comes to its end and `ape_socket_do_jobs` goes on with the next one. -/
theorem offering_loop (keeps : Keeps good total) (some_chunks : 0 < maxChunks) {exit : DoingJobs → Prop}
    (finishes : Finishes good total base job njobsdone exit) {doing : DoingJobs}
    (during : During maxChunks good total base job njobsdone doing) {fuel : Nat} {result : Except Fault (World × Int)}
    (returned : loop (doJobsTurn kernel maxChunks) fuel doing = some result) :
    Stopped good total base job result ∨
      ∃ last left, exit last ∧ loop (doJobsTurn kernel maxChunks) left last = some result := by
  apply loop_exit (During maxChunks good total base job njobsdone) exit (Stopped good total base job) ?_ during returned
  rintro ⟨world, done, label⟩ ⟨same, here⟩
  have count : done = njobsdone := same
  subst count
  cases label with
  | job => exact absurd here id
  | sendfile job fd => exact absurd here id
  | rewrite job plist chunks =>
    obtain ⟨rfl, pending, offering, some_pending, rfl⟩ := here
    rcases @offering_rewrite kernel maxChunks _ _ _ job done world plist pending keeps some_chunks offering some_pending with
      ⟨next, turn, still⟩ | ⟨result, turn, stopped⟩
    · exact .inl ⟨next, turn, .inl still⟩
    · exact .inr ⟨result, turn, stopped⟩
  | consume job plist n =>
    obtain ⟨rfl, pending, taken, offering, positive, small, rfl⟩ := here
    obtain ⟨next, turn, reached⟩ :=
      @offering_consume maxChunks _ _ _ job done world plist pending taken keeps exit finishes offering positive small
    exact .inl ⟨next, turn, reached⟩

end Job

end ZapeProof
