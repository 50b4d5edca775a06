import Zape.Ape.Packets

/-! What `ape_socket_queue_data` leaves behind. -/
namespace ZapeProof

open Machine ZapeModel

def queuedSuffixes (out : List SocketEvent) : List (List Byte) :=
  out.filterMap fun
    | .queued suffix => some suffix
    | _ => none

def flushed (out : List SocketEvent) : List Byte :=
  out.flatMap fun
    | .writev chunks (.accepted count) => chunks.flatten.take count
    | _ => []

/-- Neither data nor a call that sends. -/
def aside : SocketEvent → Bool
  | .shutdown | .destroy | .free _ => true
  | .write _ _ _ | .writev _ _ | .queued _ | .sendfile _ _ | .sslWrite _ _ | .closeFile _ => false

section Observers

variable (left right : List SocketEvent)

@[simp] theorem queuedSuffixes_append :
    queuedSuffixes (left ++ right) = queuedSuffixes left ++ queuedSuffixes right := List.filterMap_append

@[simp] theorem flushed_append : flushed (left ++ right) = flushed left ++ flushed right := List.flatMap_append

theorem queuedSuffixes_aside {events : List SocketEvent} (all : ∀ event ∈ events, aside event = true) :
    queuedSuffixes events = [] := by
  unfold queuedSuffixes
  rw [List.filterMap_eq_nil_iff]
  intro event member
  have only := all event member
  cases event <;> simp_all [aside]

theorem flushed_aside {events : List SocketEvent} (all : ∀ event ∈ events, aside event = true) :
    flushed events = [] := by
  unfold flushed
  rw [List.flatMap_eq_nil_iff]
  intro event member
  have only := all event member
  cases event <;> simp_all [aside]

def OnlyFrees (events : List SocketEvent) : Prop := ∀ event ∈ events, ∃ pointer, event = .free pointer

theorem release_free (pointer : DataPointer) (dataType : DataAutorelease) :
    OnlyFrees (apeSocketReleaseData pointer dataType) := by
  cases dataType <;> simp [OnlyFrees, apeSocketReleaseData]

theorem frees_aside {events : List SocketEvent} (frees : OnlyFrees events) : ∀ event ∈ events, aside event = true := by
  intro event member
  obtain ⟨pointer, rfl⟩ := frees event member
  rfl

theorem release_aside (pointer : DataPointer) (dataType : DataAutorelease) :
    ∀ event ∈ apeSocketReleaseData pointer dataType, aside event = true :=
  frees_aside (release_free pointer dataType)

end Observers

theorem shutdownNow_kept (world : World) :
    ∃ state events, apeSocketShutdownNow world =
        { world with socket := { world.socket with state }, out := world.out ++ events } ∧
      ∀ event ∈ events, aside event = true := by
  unfold apeSocketShutdownNow
  split
  · exact ⟨.shutdown, [.shutdown], rfl, by simp [aside]⟩
  · exact ⟨.offline, [.destroy], rfl, by simp [aside]⟩
  · exact ⟨.offline, [.destroy], rfl, by simp [aside]⟩
  · exact ⟨world.socket.state, [], by simp, by simp⟩
  · exact ⟨world.socket.state, [], by simp, by simp⟩

/-- What the pointer of a job stands for when it is a packet list, or none yet. -/
def JobHolds (ptr : JobPtr) (pending : List (List Byte)) : Prop :=
  (ptr = .null ∧ pending = []) ∨ ∃ plist, ptr = .data plist ∧ Packets plist pending

/-- The same, and the packets in the list. -/
def JobStock (ptr : JobPtr) (stock : List Packet) (pending : List (List Byte)) : Prop :=
  (ptr = .null ∧ stock = [] ∧ pending = []) ∨ ∃ plist, ptr = .data plist ∧ Stocked plist stock pending

theorem JobHolds.stock {ptr : JobPtr} {pending : List (List Byte)} (holds : JobHolds ptr pending) :
    ∃ stock, JobStock ptr stock pending := by
  rcases holds with ⟨null, none⟩ | ⟨plist, list, packets⟩
  · exact ⟨[], .inl ⟨null, rfl, none⟩⟩
  · obtain ⟨stock, stocked⟩ := packets.stocked
    exact ⟨stock, .inr ⟨plist, list, stocked⟩⟩

theorem packetQueue_stock {ptr : JobPtr} {stock : List Packet} {pending : List (List Byte)}
    (holds : JobStock ptr stock pending) : ∃ plist, packetQueue ptr = .ok plist ∧ Stocked plist stock pending := by
  rcases holds with ⟨rfl, rfl, rfl⟩ | ⟨plist, rfl, stocked⟩
  · exact ⟨_, rfl, stocked_init (by omega)⟩
  · exact ⟨plist, rfl, stocked⟩

theorem packetQueue_holds {ptr : JobPtr} {pending : List (List Byte)} (holds : JobHolds ptr pending) :
    ∃ plist, packetQueue ptr = .ok plist ∧ Packets plist pending := by
  obtain ⟨stock, held⟩ := holds.stock
  obtain ⟨plist, queue, stocked⟩ := packetQueue_stock held
  exact ⟨plist, queue, stocked.packets⟩

/-- The packet that `ape_socket_queue_data` makes of what it is given. -/
def handedPacket (world : World) (data : List Byte) (offset : SizeT) (dataType : DataAutorelease) : Packet :=
  let dataType := if dataType = .static then .copy else dataType
  { data := some data, pointer := if dataType = .copy then .copy world.handed else .caller world.handed,
    len := BitVec.ofNat 64 data.length, offset, dataType }

/-- A job that can take more data: a `WRITEV` job, or none that is active. -/
def TakesData (flags : BitVec 32) : Prop :=
  flags &&& apeSocketJobWritev ≠ 0#32 ∨ flags &&& apeSocketJobActive = 0#32

def claimed (jobs : PoolList Job) (slot : Nat) : PoolList Job :=
  jobs.setFlags slot ((jobs.node slot).flags ||| (apeSocketJobActive ||| apeSocketJobWritev))

theorem jobGetSlot_takes {socket : ApeSocket} {slot : Nat} (current : socket.jobs.current = some slot)
    (takes : TakesData (socket.jobs.node slot).flags) :
    apeSocketJobGetSlot socket apeSocketJobWritev =
      .ok ({ socket with jobs := claimed socket.jobs slot }, slot) := by
  unfold TakesData at takes
  rw [apeSocketJobGetSlot, current]
  simp only [true_and, if_pos takes]
  rfl

theorem claimed_content (jobs : PoolList Job) (slot : Nat) :
    ((claimed jobs slot).node slot).content = (jobs.node slot).content := by
  simp [claimed, PoolList.setFlags, PoolList.modify]

/-- The world once the list of a slot holds another packet. -/
def stored (world : World) (slot : Nat) (plist : PoolList Packet) (suffix : List Byte) (total : SizeT) : World :=
  { world with
    socket := { world.socket with
      jobs := (claimed world.socket.jobs slot).setContent slot (.data plist)
      currentBufferMemoryBytes := world.socket.currentBufferMemoryBytes + BitVec.ofNat 64 suffix.length }
    totalMemoryBuffered := total
    out := world.out ++ [.queued suffix] }

/-- The same, in whatever slot was taken. -/
def queuedIn (world : World) (jobs : PoolList Job) (slot : Nat) (plist : PoolList Packet) (suffix : List Byte)
    (total : SizeT) : World :=
  { world with
    socket := { world.socket with
      jobs := jobs.setContent slot (.data plist)
      currentBufferMemoryBytes := world.socket.currentBufferMemoryBytes + BitVec.ofNat 64 suffix.length }
    totalMemoryBuffered := total
    out := world.out ++ [.queued suffix] }

def Overflows (socket : ApeSocket) : Prop :=
  socket.maxBufferMemoryMb ≠ 0#64 ∧
    (socket.maxBufferMemoryMb * 1024#64 * 1024#64).ult socket.currentBufferMemoryBytes = true

instance (socket : ApeSocket) : Decidable (Overflows socket) := instDecidableAnd

section Queue

variable {world : World} {slot : Nat} {pending : List (List Byte)} {data : List Byte} {offset : SizeT}

theorem queueData_stocked {jobs : PoolList Job} {stock : List Packet}
    (taken : apeSocketJobGetSlot world.socket apeSocketJobWritev = .ok ({ world.socket with jobs }, slot))
    (holds : JobStock (jobs.node slot).content stock pending) (object : data.length < 2 ^ 63)
    (inside : offset.toNat < data.length) (dataType : DataAutorelease) :
    ∃ plist, Stocked plist (stock ++ [handedPacket world data offset dataType]) (pending ++ [data.drop offset.toNat]) ∧
      apeSocketQueueData world data offset dataType =
        let next := queuedIn world jobs slot plist (data.drop offset.toNat)
          (world.totalMemoryBuffered + BitVec.ofNat 64 (data.drop offset.toNat).length)
        .ok (if Overflows next.socket then apeSocketShutdownNow next else next) := by
  obtain ⟨plist, queue, stocked⟩ := packetQueue_stock holds
  have carries : Carries (handedPacket world data offset dataType) data (data.drop offset.toNat) :=
    { stored := rfl, object, len := rfl, inside, unsent := rfl }
  have remaining : BitVec.ofNat 64 data.length - offset = BitVec.ofNat 64 (data.drop offset.toNat).length :=
    carries.remaining
  obtain ⟨pushed, pushing, packed⟩ := stocked_push stocked carries
  refine ⟨pushed, packed, ?_⟩
  have pushingHere : pushPacket plist { data := some data, len := BitVec.ofNat 64 data.length, offset,
                                        pointer := if (if dataType = .static then .copy else dataType) = .copy then
                                          .copy world.handed else .caller world.handed,
                                        dataType := if dataType = .static then .copy else dataType } = .ok pushed :=
    pushing
  rw [apeSocketQueueData]
  simp only [taken, queue, pushingHere, remaining]
  rfl

theorem queueData_into {jobs : PoolList Job}
    (taken : apeSocketJobGetSlot world.socket apeSocketJobWritev = .ok ({ world.socket with jobs }, slot))
    (holds : JobHolds (jobs.node slot).content pending) (object : data.length < 2 ^ 63)
    (inside : offset.toNat < data.length) (dataType : DataAutorelease) :
    ∃ plist total, Packets plist (pending ++ [data.drop offset.toNat]) ∧
      apeSocketQueueData world data offset dataType =
        let next := queuedIn world jobs slot plist (data.drop offset.toNat) total
        .ok (if Overflows next.socket then apeSocketShutdownNow next else next) := by
  obtain ⟨stock, held⟩ := holds.stock
  obtain ⟨plist, stocked, queued⟩ := queueData_stocked taken held object inside dataType
  exact ⟨plist, _, stocked.packets, queued⟩

theorem queueData_result (current : world.socket.jobs.current = some slot)
    (takes : TakesData (world.socket.jobs.node slot).flags)
    (holds : JobHolds (world.socket.jobs.node slot).content pending) (object : data.length < 2 ^ 63)
    (inside : offset.toNat < data.length) (dataType : DataAutorelease) :
    ∃ plist total, Packets plist (pending ++ [data.drop offset.toNat]) ∧
      apeSocketQueueData world data offset dataType =
        let next := stored world slot plist (data.drop offset.toNat) total
        .ok (if Overflows next.socket then apeSocketShutdownNow next else next) := by
  rw [← claimed_content] at holds
  exact queueData_into (jobGetSlot_takes current takes) holds object inside dataType

theorem queueData_stores (current : world.socket.jobs.current = some slot)
    (takes : TakesData (world.socket.jobs.node slot).flags)
    (holds : JobHolds (world.socket.jobs.node slot).content pending) (object : data.length < 2 ^ 63)
    (inside : offset.toNat < data.length) (dataType : DataAutorelease) :
    ∃ plist total state events,
      apeSocketQueueData world data offset dataType = .ok
        { stored world slot plist (data.drop offset.toNat) total with
          socket := { (stored world slot plist (data.drop offset.toNat) total).socket with state }
          out := (stored world slot plist (data.drop offset.toNat) total).out ++ events } ∧
      Packets plist (pending ++ [data.drop offset.toNat]) ∧ ∀ event ∈ events, aside event = true := by
  obtain ⟨plist, total, packets, queued⟩ := queueData_result current takes holds object inside dataType
  let next := stored world slot plist (data.drop offset.toNat) total
  by_cases overflows : Overflows next.socket
  · obtain ⟨state, events, shut, only⟩ := shutdownNow_kept next
    refine ⟨plist, total, state, events, ?_, packets, only⟩
    rw [queued, ← shut]
    exact congrArg Except.ok (if_pos overflows)
  · refine ⟨plist, total, world.socket.state, [], ?_, packets, by simp⟩
    rw [queued, List.append_nil]
    exact congrArg Except.ok (if_neg overflows)

end Queue

end ZapeProof
