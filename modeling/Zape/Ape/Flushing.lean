import Zape.Ape.Writing

/-! Runs of writes and of `ape_socket_do_jobs`: nothing that was queued is lost, doubled or reordered. -/
namespace ZapeProof

open Machine ZapeModel

/-- The flags of the only job: its slot is new, its list is empty, or it is active. -/
def newFlags : BitVec 32 := 0x01#32
def emptyFlags : BitVec 32 := 0x03#32
def activeFlags : BitVec 32 := 0x13#32

/-- The socket has one job at most, and it is active exactly as long as something is pending. -/
structure Waiting (socket : ApeSocket) (pending : List (List Byte)) : Prop where
  head : socket.jobs.head = some 0
  current : socket.jobs.current = some 0
  holds : JobHolds (socket.jobs.node 0).content pending
  flags : (socket.jobs.node 0).flags = newFlags ∧ (socket.jobs.node 0).content = .null ∨
    (socket.jobs.node 0).flags = (if pending = [] then emptyFlags else activeFlags)
  bytes : socket.currentBufferMemoryBytes = BitVec.ofNat 64 pending.flatten.length

/-- What was queued is what was flushed and what is pending. -/
structure Balanced (world : World) (pending : List (List Byte)) : Prop where
  waiting : Waiting world.socket pending
  total : flushed world.out ++ pending.flatten = (queuedSuffixes world.out).flatten

section Queue

variable {world : World} {pending : List (List Byte)} {data : List Byte}

def JobFlags (node : PoolNode Job) (pending : List (List Byte)) : Prop :=
  node.flags = newFlags ∧ node.content = .null ∨ node.flags = if pending = [] then emptyFlags else activeFlags

theorem JobFlags.takes {node : PoolNode Job} (flags : JobFlags node pending) : TakesData node.flags := by
  rcases flags with ⟨flags, -⟩ | flags
  · rw [flags]
    exact .inr (by decide)
  · rw [flags]
    split
    · exact .inl (by decide)
    · exact .inl (by decide)

theorem JobFlags.claimed {node : PoolNode Job} (flags : JobFlags node pending) :
    node.flags ||| (apeSocketJobActive ||| apeSocketJobWritev) = activeFlags := by
  rcases flags with ⟨flags, -⟩ | flags
  · rw [flags]
    decide
  · rw [flags]
    split <;> decide

/-- The only job is active exactly as long as something is pending. -/
theorem JobFlags.busy {node : PoolNode Job} (flags : JobFlags node pending) (holds : JobHolds node.content pending) :
    (pending = [] ∧ node.active = false) ∨
      pending ≠ [] ∧ node.flags = activeFlags ∧ ∃ plist, node.content = .data plist ∧ Packets plist pending := by
  rcases flags with ⟨flags, null⟩ | flags
  · refine .inl ⟨?_, by rw [PoolNode.active, flags]; decide⟩
    rcases holds with ⟨-, none⟩ | ⟨_, list, -⟩
    · exact none
    · cases null.symm.trans list
  · by_cases none : pending = []
    · rw [if_pos none] at flags
      exact .inl ⟨none, by rw [PoolNode.active, flags]; decide⟩
    · rw [if_neg none] at flags
      rcases holds with ⟨-, empty⟩ | held
      · exact absurd empty none
      · exact .inr ⟨none, flags, held⟩

theorem Waiting.takes (waiting : Waiting world.socket pending) : TakesData (world.socket.jobs.node 0).flags :=
  JobFlags.takes waiting.flags

theorem Waiting.claimed (waiting : Waiting world.socket pending) :
    (world.socket.jobs.node 0).flags ||| (apeSocketJobActive ||| apeSocketJobWritev) = activeFlags :=
  JobFlags.claimed waiting.flags

theorem balanced_queue (balanced : Balanced world pending) (object : data.length < 2 ^ 63) {offset : SizeT}
    (inside : offset.toNat < data.length) (dataType : DataAutorelease) :
    ∃ next more, apeSocketQueueData world data offset dataType = .ok next ∧ Balanced next more := by
  have waiting := balanced.waiting
  obtain ⟨plist, total, state, events, queued, packets, only⟩ :=
    queueData_stores waiting.current waiting.takes waiting.holds object inside dataType
  let suffix := data.drop offset.toNat
  refine ⟨_, pending ++ [suffix], queued, ?_, ?_⟩
  · refine { head := waiting.head, current := waiting.current, holds := .inr ⟨plist, ?_, packets⟩,
             flags := .inr ?_, bytes := ?_ }
    · simp [stored, PoolList.setContent, PoolList.modify]
    · rw [if_neg (by simp), ← waiting.claimed]
      simp [stored, claimed, PoolList.setContent, PoolList.setFlags, PoolList.modify]
    · show world.socket.currentBufferMemoryBytes + BitVec.ofNat 64 suffix.length = _
      rw [waiting.bytes, ← BitVec.ofNat_add]
      simp
  · have log : queuedSuffixes (stored world 0 plist suffix total).out = queuedSuffixes world.out ++ [suffix] := by
      simp [stored, queuedSuffixes]
    have quiet : flushed (stored world 0 plist suffix total).out = flushed world.out := by
      simp [stored, flushed]
    show flushed ((stored world 0 plist suffix total).out ++ events) ++ _ =
      (queuedSuffixes ((stored world 0 plist suffix total).out ++ events)).flatten
    rw [flushed_append, queuedSuffixes_append, flushed_aside only, queuedSuffixes_aside only, log, quiet]
    simp only [List.append_nil, List.flatten_append, ← balanced.total, List.append_assoc]

theorem Waiting.congr {socket : ApeSocket} (waiting : Waiting world.socket pending) (jobs : socket.jobs = world.socket.jobs)
    (bytes : socket.currentBufferMemoryBytes = world.socket.currentBufferMemoryBytes) : Waiting socket pending :=
  { head := by rw [jobs, waiting.head], current := by rw [jobs, waiting.current], holds := jobs ▸ waiting.holds,
    flags := jobs ▸ waiting.flags, bytes := bytes.trans waiting.bytes }

theorem Balanced.log {next : World} (balanced : Balanced world pending) (jobs : next.socket.jobs = world.socket.jobs)
    (bytes : next.socket.currentBufferMemoryBytes = world.socket.currentBufferMemoryBytes)
    (flush : flushed next.out = flushed world.out) (queue : queuedSuffixes next.out = queuedSuffixes world.out) :
    Balanced next pending :=
  { waiting := balanced.waiting.congr jobs bytes, total := by rw [flush, queue, balanced.total] }

theorem balanced_shutdownNow (balanced : Balanced world pending) : Balanced (apeSocketShutdownNow world) pending := by
  obtain ⟨state, events, shut, only⟩ := shutdownNow_kept world
  rw [shut]
  refine balanced.log rfl rfl ?_ ?_
  · rw [flushed_append, flushed_aside only, List.append_nil]
  · rw [queuedSuffixes_append, queuedSuffixes_aside only, List.append_nil]

theorem balanced_release (balanced : Balanced world pending) (pointer : DataPointer) (dataType : DataAutorelease) :
    Balanced (world.emit (apeSocketReleaseData pointer dataType)) pending := by
  have only := release_aside pointer dataType
  refine balanced.log rfl rfl ?_ ?_
  · show flushed (world.out ++ apeSocketReleaseData pointer dataType) = _
    rw [flushed_append, flushed_aside only, List.append_nil]
  · show queuedSuffixes (world.out ++ apeSocketReleaseData pointer dataType) = _
    rw [queuedSuffixes_append, queuedSuffixes_aside only, List.append_nil]

theorem balanced_writeReturn (balanced : Balanced world pending) (dataType : DataAutorelease) (ioError : Bool) :
    Balanced (writeReturn dataType world ioError).1 pending := by
  have released := balanced_release balanced (.caller world.handed) (if dataType = .copy then .own else dataType)
  cases ioError with
  | false => exact released
  | true => exact balanced_shutdownNow released

end Queue

section Write

variable {kernel : Kernel} {data : List Byte} {dataType : DataAutorelease} {world : World} {pending : List (List Byte)}

theorem balanced_wrote (balanced : Balanced world pending) (offset length : Nat) :
    Balanced (wrote kernel world offset length) pending := by
  refine balanced.log rfl rfl ?_ ?_
  · simp [wrote, World.emit, flushed]
  · simp [wrote, World.emit, queuedSuffixes]

structure WritingState (data : List Byte) (writing : Writing) : Prop where
  balanced : ∃ pending, Balanced writing.world pending
  whole : writing.rBytes = BitVec.ofNat 64 data.length

theorem turn_writing (object : data.length < 2 ^ 63) {writing : Writing} (state : WritingState data writing) :
    (∃ next, writeTurn kernel data dataType writing = .again next ∧ WritingState data next ∧
        data.length - next.tBytes.toNat < data.length - writing.tBytes.toNat) ∨
      ∃ next ret more, writeTurn kernel data dataType writing = .done (.ok (next, ret)) ∧ Balanced next more := by
  obtain ⟨pending, balanced⟩ := state.balanced
  by_cases within : writing.tBytes.toNat < data.length
  · have turn := @turn_within kernel data dataType writing object within state.whole
    have called := @balanced_wrote kernel _ _ balanced writing.tBytes.toNat data.length
    dsimp only at turn
    cases reply : kernel.reply writing.world.calls data.length with
    | accepted count =>
      simp only [reply] at turn
      obtain ⟨-, short, positive⟩ := kernel.honest _ _ _ reply
      refine .inl ⟨_, turn, ⟨⟨pending, called⟩, state.whole⟩, ?_⟩
      have moved : (writing.tBytes + BitVec.ofNat 64 count).toNat = writing.tBytes.toNat + count := by
        rw [BitVec.toNat_add, toNat_ofNat_size short]
        omega
      have advanced := positive (by omega)
      simp only [moved]
      omega
    | again =>
      simp only [reply] at turn
      have blocked : Balanced { wrote kernel writing.world writing.tBytes.toNat data.length with
          socket := { (wrote kernel writing.world writing.tBytes.toNat data.length).socket with wouldBlock := true } }
          pending := called.log rfl rfl rfl rfl
      obtain ⟨next, more, queued, kept⟩ := balanced_queue blocked object within dataType
      rw [queued] at turn
      exact .inr ⟨next, _, more, turn, kept⟩
    | interrupted | failed =>
      simp only [reply] at turn
      exact .inr ⟨_, _, pending, turn, balanced_writeReturn called dataType true⟩
  · have turn := @turn_beyond kernel data dataType writing object (by omega)
    exact .inr ⟨_, _, pending, turn, balanced_writeReturn balanced dataType false⟩

/-- What a call comes to, if it ends, is again a balanced world. -/
def Balances (result : Option (Except Fault (World × Int))) : Prop :=
  ∀ outcome, result = some outcome → ∃ next ret pending, outcome = .ok (next, ret) ∧ Balanced next pending

theorem write_cases (balanced : Balanced world pending) (object : data.length < 2 ^ 63) :
    (∃ next ret more, Balanced next more ∧
        ∀ fuel, apeSocketWrite kernel data dataType fuel world = some (.ok (next, ret))) ∨
      ∀ fuel, apeSocketWrite kernel data dataType fuel world =
        loop (writeTurn kernel data dataType) fuel { world, rBytes := BitVec.ofNat 64 data.length } := by
  by_cases refused : world.socket.state ≠ .online ∨ BitVec.ofNat 64 data.length = 0#64
  · refine .inl ⟨world.emit (apeSocketReleaseData (.caller world.handed) (if dataType = .copy then .own else dataType)), -1,
    pending,
      balanced_release balanced _ _, fun fuel => ?_⟩
    rw [apeSocketWrite, if_pos refused]
  · obtain ⟨online, nonzero⟩ := not_or.mp refused
    have some_data : data ≠ [] := by
      rintro rfl
      exact nonzero rfl
    have starts := @write_starts kernel data dataType world (not_not.mp online) 0 balanced.waiting.head some_data object
    by_cases waits : world.socket.wouldBlock = true ∨ (world.socket.jobs.node 0).active = true
    · obtain ⟨next, more, queued, kept⟩ :=
        @balanced_queue world pending data balanced object 0#64 (List.length_pos_of_ne_nil some_data) dataType
      refine .inl ⟨next, intOfSize (BitVec.ofNat 64 data.length), more, kept, fun fuel => ?_⟩
      rw [starts, if_pos waits, queued]
      rfl
    · refine .inr fun fuel => ?_
      rw [starts, if_neg waits]

theorem balanced_write (balanced : Balanced world pending) (object : data.length < 2 ^ 63) (fuel : Nat) :
    Balances (apeSocketWrite kernel data dataType fuel world) := by
  intro outcome returned
  rcases @write_cases kernel data dataType _ _ balanced object with ⟨next, ret, more, kept, result⟩ | loops
  · rw [result] at returned
    cases returned
    exact ⟨next, ret, more, rfl, kept⟩
  · rw [loops] at returned
    apply @loop_result _ _ (writeTurn kernel data dataType) _ (WritingState data)
      (fun outcome => ∃ next ret pending, outcome = .ok (next, ret) ∧ Balanced next pending) ?_ fuel outcome
      ⟨⟨pending, balanced⟩, rfl⟩ returned
    intro writing state
    rcases @turn_writing kernel data dataType object writing state with ⟨next, turn, kept, -⟩ | ⟨next, ret, more, turn, kept⟩
    · exact .inl ⟨next, turn, kept⟩
    · exact .inr ⟨_, turn, next, ret, more, rfl, kept⟩

theorem write_ends (balanced : Balanced world pending) (object : data.length < 2 ^ 63) :
    ∃ fuel outcome, apeSocketWrite kernel data dataType fuel world = some outcome := by
  rcases @write_cases kernel data dataType _ _ balanced object with ⟨next, ret, more, -, result⟩ | loops
  · exact ⟨0, _, result 0⟩
  · have ends := @loop_ends _ _ Nat (writeTurn kernel data dataType) { world, rBytes := BitVec.ofNat 64 data.length } _ _
      (WritingState data) (fun writing => data.length - writing.tBytes.toNat) ?_ ⟨⟨pending, balanced⟩, rfl⟩
    · simpa only [← loops] using ends
    · intro writing state
      rcases @turn_writing kernel data dataType object writing state with ⟨next, turn, kept, less⟩ | ⟨next, ret, _, turn, -⟩
      · exact .inl ⟨next, turn, kept, less⟩
      · exact .inr ⟨_, turn⟩

end Write

end ZapeProof
