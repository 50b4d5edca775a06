import Zape.Ape.Secure
import Zape.Machine.Runs

/-! The bytes that wait on the secure sockets, as they are counted for each of them and for all. -/
namespace ZapeModel

open Machine

/-- `ape_global` as far as its secure sockets are concerned; a socket that was freed is `none`. -/
structure ApeGlobal where
  sockets : List (Option ApeSocket) := []
  totalMemoryBuffered : SizeT := 0#64
  calls : Nat := 0
  handed : Nat := 0
  out : List SocketEvent := []

/-- `connected` ends the handshake, `readable` and `writable` are what the event loop does first on these events, and
    `free` is `ape_socket_free`. -/
inductive SecureCall
  | new
  | connected (slot : Nat)
  | setBufferMaxSize (slot : Nat) (mb : SizeT)
  | write (slot : Nat) (data : DataObject) (dataType : DataAutorelease)
  | readable (slot : Nat)
  | writable (slot : Nat)
  | doJobs (slot : Nat)
  | free (slot : Nat)

namespace ApeGlobal

def live (ape : ApeGlobal) (slot : Nat) : Option ApeSocket := ape.sockets[slot]?.join

/-- A socket as its functions see it. -/
def world (ape : ApeGlobal) (socket : ApeSocket) : World :=
  { socket, totalMemoryBuffered := ape.totalMemoryBuffered, calls := ape.calls, handed := ape.handed, out := ape.out }

def store (ape : ApeGlobal) (slot : Nat) (world : World) : ApeGlobal :=
  { sockets := ape.sockets.set slot (some world.socket), totalMemoryBuffered := world.totalMemoryBuffered,
    calls := world.calls, handed := world.handed, out := world.out }

def on (ape : ApeGlobal) (slot : Nat) (run : World → Except Stop World) : Except Stop ApeGlobal :=
  match ape.live slot with
  | none => .ok ape
  | some socket => (run (ape.world socket)).map (ape.store slot)

section Perform

variable (kernel : Kernel) (ssl : Nat → SslReply) (fuel : Nat)

def doJobs (world : World) : Except Stop World :=
  (Stop.outcome (apeSocketDoJobsSecure kernel ssl fuel world)).map Prod.fst

def perform (ape : ApeGlobal) : SecureCall → Except Stop ApeGlobal
  | .new => .ok { ape with sockets := ape.sockets ++ [some { state := .pending }] }
  | .connected slot => ape.on slot fun world =>
    match world.socket.state with
    | .pending | .progress => .ok { world with socket := { world.socket with state := .online } }
    | .online | .offline | .shutdown => .ok world
  | .setBufferMaxSize slot mb => ape.on slot fun world =>
    .ok { world with socket := { world.socket with maxBufferMemoryMb := mb } }
  | .write slot data dataType => ape.on slot fun world =>
    (Stop.outcome (some (apeSocketWriteSecure ssl data.bytes dataType world))).map fun result =>
      { result.1 with handed := result.1.handed + 1 }
  | .readable slot => ape.on slot fun world =>
    if world.socket.needWrite then doJobs kernel ssl fuel { world with socket := { world.socket with needWrite := false } }
    else .ok world
  | .writable slot => ape.on slot fun world => .ok { world with socket := { world.socket with wouldBlock := false } }
  | .doJobs slot => ape.on slot (doJobs kernel ssl fuel)
  | .free slot =>
    match ape.live slot with
    | none => .ok ape
    | some socket =>
      match (ape.world socket).apeSocketFree with
      | .error fault => .error (.fault fault)
      | .ok freeing => .ok { ape.store slot freeing.world with sockets := ape.sockets.set slot none }

end Perform

end ApeGlobal

end ZapeModel

namespace ZapeProof

open Machine ZapeModel

/-- The bytes that these packets still have to send. -/
def unsentBytes (packets : List Packet) : Nat := (packets.map fun packet => (packet.len - packet.offset).toNat).sum

def bytesQueued (socket : ApeSocket) : Nat := unsentBytes (queuedPackets socket.jobs)

def bytesOf : Option ApeSocket → Nat
  | none => 0
  | some socket => bytesQueued socket

def bytesInAll (sockets : List (Option ApeSocket)) : Nat := (sockets.map bytesOf).sum

/-- The counters are the numbers of bytes that are really queued. -/
structure Counted (ape : ApeGlobal) : Prop where
  each : ∀ socket, some socket ∈ ape.sockets → socket.currentBufferMemoryBytes.toNat = bytesQueued socket
  total : ape.totalMemoryBuffered.toNat = bytesInAll ape.sockets

/-- If a write is queued and cuts the connection, more bytes are really queued than the limit allows. -/
def FairCut (kernel : Kernel) (ssl : Nat → SslReply) (fuel : Nat) (ape : ApeGlobal) : SecureCall → Prop
  | .write slot data dataType => ∀ next socket, ape.perform kernel ssl fuel (.write slot data dataType) = .ok next →
      next.live slot = some socket → socket.state = .shutdown → queuedSuffixes next.out ≠ queuedSuffixes ape.out →
      socket.maxBufferMemoryMb.toNat * 1024 * 1024 < bytesQueued socket
  | _ => True

/-- The limit in bytes is beyond the range of `size_t`, and what is left of it is exceeded, but not the limit itself. -/
def CutsEarly (mb : SizeT) (bytes : Nat) : Prop :=
  mb ≠ 0#64 ∧ (mb * 1024#64 * 1024#64).toNat < bytes ∧ bytes ≤ mb.toNat * 1024 * 1024

/-- The jobs take no packet: none is active, or `ape_ssl_write` is going to refuse the first packet. -/
def TakesNone (ssl : Nat → SslReply) (ape : ApeGlobal) (socket : ApeSocket) : Prop :=
  headActive socket = false ∨ (ssl ape.calls).refuses = true

/-- The jobs take no packet, and what is queued can be counted. -/
def StaysCounted (ssl : Nat → SslReply) (ape : ApeGlobal) : SecureCall → Prop
  | .write slot data _ => ∀ socket, ape.live slot = some socket → Queues ssl (ape.world socket) data.bytes →
      bytesInAll ape.sockets + data.bytes.length < 2 ^ 64
  | .readable slot => ∀ socket, ape.live slot = some socket → socket.needWrite = true → TakesNone ssl ape socket
  | .doJobs slot => ∀ socket, ape.live slot = some socket → TakesNone ssl ape socket
  | .new | .connected _ | .setBufferMaxSize _ _ | .writable _ | .free _ => True

/-- No write that is queued is cut off by what the multiplication left of the limit. -/
def StaysFair (ssl : Nat → SslReply) (ape : ApeGlobal) : SecureCall → Prop
  | .write slot data _ => ∀ socket, ape.live slot = some socket → Queues ssl (ape.world socket) data.bytes →
      ¬ CutsEarly socket.maxBufferMemoryMb (bytesQueued socket + data.bytes.length)
  | _ => True

section Decide

variable (ssl : Nat → SslReply) (ape : ApeGlobal)

instance (mb : SizeT) (bytes : Nat) : Decidable (CutsEarly mb bytes) := instDecidableAnd

instance (socket : ApeSocket) : Decidable (TakesNone ssl ape socket) := instDecidableOr

instance : (call : SecureCall) → Decidable (StaysCounted ssl ape call)
  | .write slot data _ => inferInstanceAs (Decidable (∀ socket ∈ ape.live slot,
      Queues ssl (ape.world socket) data.bytes → bytesInAll ape.sockets + data.bytes.length < 2 ^ 64))
  | .readable slot => inferInstanceAs (Decidable (∀ socket ∈ ape.live slot, socket.needWrite = true → TakesNone ssl ape socket))
  | .doJobs slot => inferInstanceAs (Decidable (∀ socket ∈ ape.live slot, TakesNone ssl ape socket))
  | .new | .connected _ | .setBufferMaxSize _ _ | .writable _ | .free _ => isTrue trivial

instance : (call : SecureCall) → Decidable (StaysFair ssl ape call)
  | .write slot data _ => inferInstanceAs (Decidable (∀ socket ∈ ape.live slot,
      Queues ssl (ape.world socket) data.bytes →
        ¬ CutsEarly socket.maxBufferMemoryMb (bytesQueued socket + data.bytes.length)))
  | .new | .connected _ | .setBufferMaxSize _ _ | .readable _ | .writable _ | .doJobs _ | .free _ => isTrue trivial

end Decide

/-- Every socket has one job at most, and none of them is a shutdown. -/
def Manned (ape : ApeGlobal) : Prop := ∀ socket, some socket ∈ ape.sockets → ∃ duty, Single socket.jobs duty

section Bytes

variable {sockets : List (Option ApeSocket)} {slot : Nat} {old : Option ApeSocket}

theorem unsentBytes_append (left right : List Packet) :
    unsentBytes (left ++ right) = unsentBytes left + unsentBytes right := by
  rw [unsentBytes, unsentBytes, unsentBytes, List.map_append, List.sum_append]

theorem unsent_ofNat (packets : List Packet) : unsent packets = BitVec.ofNat 64 (unsentBytes packets) := by
  induction packets with
  | nil => rfl
  | cons packet packets ih =>
    have first : unsent (packet :: packets) = (packet.len - packet.offset) + unsent packets := List.sum_cons
    have bytes : unsentBytes (packet :: packets) = (packet.len - packet.offset).toNat + unsentBytes packets := List.sum_cons
    rw [first, bytes, ih, BitVec.ofNat_add, BitVec.ofNat_toNat, BitVec.setWidth_eq]

theorem bytes_set (here : sockets[slot]? = some old) (new : Option ApeSocket) :
    bytesInAll (sockets.set slot new) + bytesOf old = bytesInAll sockets + bytesOf new := by
  induction sockets generalizing slot with
  | nil => cases here
  | cons first sockets ih =>
    cases slot with
    | zero =>
      cases here
      simp only [List.set_cons_zero, bytesInAll, List.map_cons, List.sum_cons]
      omega
    | succ slot =>
      have rest := @ih slot here
      simp only [List.set_cons_succ, bytesInAll, List.map_cons, List.sum_cons] at rest ⊢
      omega

theorem bytes_le (here : sockets[slot]? = some old) : bytesOf old ≤ bytesInAll sockets := by
  have removed := bytes_set here none
  rw [show bytesOf none = 0 from rfl] at removed
  omega

end Bytes

section Store

variable {ape : ApeGlobal} {slot : Nat} {socket : ApeSocket} {new : World}

theorem live_here (live : ape.live slot = some socket) : ape.sockets[slot]? = some (some socket) := by
  rw [ApeGlobal.live] at live
  exact Option.join_eq_some_iff.mp live

theorem live_member (live : ape.live slot = some socket) : some socket ∈ ape.sockets :=
  List.mem_of_getElem? (live_here live)

theorem store_member {other : ApeSocket} (member : some other ∈ (ape.store slot new).sockets) :
    other = new.socket ∨ some other ∈ ape.sockets :=
  (List.mem_or_eq_of_mem_set member).symm.imp Option.some.inj id

theorem store_live (live : ape.live slot = some socket) : (ape.store slot new).live slot = some new.socket := by
  obtain ⟨inside, -⟩ := List.getElem?_eq_some_iff.mp (live_here live)
  rw [ApeGlobal.live, ApeGlobal.store, List.getElem?_set_self inside]
  rfl

theorem store_manned (manned : Manned ape) {duty : Duty} (single : Single new.socket.jobs duty) :
    Manned (ape.store slot new) := by
  intro other member
  rcases store_member member with rfl | member
  · exact ⟨duty, single⟩
  · exact manned other member

theorem store_counted (counted : Counted ape) (live : ape.live slot = some socket)
    (bytes : new.socket.currentBufferMemoryBytes.toNat = bytesQueued new.socket)
    (total : new.totalMemoryBuffered.toNat + bytesQueued socket = bytesInAll ape.sockets + bytesQueued new.socket) :
    Counted (ape.store slot new) where
  each := by
    intro other member
    rcases store_member member with rfl | member
    · exact bytes
    · exact counted.each other member
  total := by
    have set := bytes_set (live_here live) (some new.socket)
    simp only [bytesOf] at set
    simp only [ApeGlobal.store]
    omega

/-- Nothing was queued or sent. -/
theorem store_kept (counted : Counted ape) (live : ape.live slot = some socket) (kept : Uncounted (ape.world socket) new)
    (same : bytesQueued new.socket = bytesQueued socket) : Counted (ape.store slot new) := by
  apply store_counted counted live
  · rw [kept.bytes, same]
    exact counted.each socket (live_member live)
  · rw [kept.total, same]
    exact congrArg (· + bytesQueued socket) counted.total

/-- Packets were sent, and no counter says so. -/
theorem store_lost (counted : Counted ape) (live : ape.live slot = some socket) (kept : Uncounted (ape.world socket) new)
    (fewer : bytesQueued new.socket < bytesQueued socket) : ¬ Counted (ape.store slot new) := by
  intro still
  have now : new.socket.currentBufferMemoryBytes.toNat = bytesQueued new.socket :=
    still.each new.socket (live_member (store_live live))
  have before : socket.currentBufferMemoryBytes.toNat = bytesQueued socket := counted.each socket (live_member live)
  rw [kept.bytes] at now
  exact absurd (now.symm.trans before) (Nat.ne_of_lt fewer)

theorem bytes_single {duty : Duty} (single : Single socket.jobs duty) : bytesQueued socket = unsentBytes duty.stock := by
  rw [bytesQueued]
  exact congrArg unsentBytes (@Single.packets duty socket.jobs single)

theorem queued_bytes {data : List Byte} (object : data.length < 2 ^ 63) {before after : World} {duty more : Duty}
    (single : Single before.socket.jobs duty) (queued : Queued data before after duty more) :
    bytesQueued after.socket = bytesQueued before.socket + data.length := by
  obtain ⟨packet, stock, bytes⟩ := queued.stock
  have packed : unsentBytes [packet] = data.length := by
    rw [unsentBytes, List.map_singleton, List.sum_singleton, bytes, toNat_ofNat_size object]
  rw [bytes_single queued.single, bytes_single single, stock, unsentBytes_append, packed]

theorem add_counted {count : SizeT} {length : Nat} (object : length < 2 ^ 63) (fits : count.toNat + length < 2 ^ 64) :
    (count + BitVec.ofNat 64 length).toNat = count.toNat + length := by
  rw [BitVec.toNat_add, toNat_ofNat_size object, Nat.mod_eq_of_lt fits]

/-- A packet more is counted exactly as long as all bytes can be. -/
theorem store_queued {data : List Byte} (object : data.length < 2 ^ 63) (counted : Counted ape)
    (live : ape.live slot = some socket) {duty more : Duty} (single : Single socket.jobs duty)
    (queued : Queued data (ape.world socket) new duty more) :
    Counted (ape.store slot new) ↔ bytesInAll ape.sockets + data.length < 2 ^ 64 := by
  have grown : bytesQueued new.socket = bytesQueued socket + data.length := queued_bytes object single queued
  have set := bytes_set (live_here live) (some new.socket)
  simp only [bytesOf] at set
  constructor
  · intro still
    have total : (ape.store slot new).totalMemoryBuffered.toNat = bytesInAll (ape.sockets.set slot (some new.socket)) :=
      still.total
    have bound := (ape.store slot new).totalMemoryBuffered.isLt
    omega
  · intro fits
    have before : socket.currentBufferMemoryBytes.toNat = bytesQueued socket := counted.each socket (live_member live)
    have among := bytes_le (live_here live)
    simp only [bytesOf] at among
    apply store_counted counted live
    · rw [queued.bytes, grown, ← before]
      apply add_counted object
      show socket.currentBufferMemoryBytes.toNat + data.length < 2 ^ 64
      omega
    · have total : new.totalMemoryBuffered.toNat = bytesInAll ape.sockets + data.length := by
        rw [queued.total, ← counted.total]
        apply add_counted object
        show ape.totalMemoryBuffered.toNat + data.length < 2 ^ 64
        rw [counted.total]
        exact fits
      omega

end Store

section Step

variable {kernel : Kernel} {ssl : Nat → SslReply} {fuel : Nat} {ape next : ApeGlobal} {slot : Nat} {socket : ApeSocket}

theorem on_cases {run : World → Except Stop World} (reached : ape.on slot run = .ok next) :
    (ape.live slot = none ∧ next = ape) ∨
      ∃ socket new, ape.live slot = some socket ∧ run (ape.world socket) = .ok new ∧ next = ape.store slot new := by
  rw [ApeGlobal.on] at reached
  cases live : ape.live slot with
  | none =>
    simp only [live] at reached
    cases reached
    exact .inl ⟨rfl, rfl⟩
  | some socket =>
    simp only [live] at reached
    obtain ⟨new, ran, rfl⟩ := returned_map reached
    exact .inr ⟨socket, new, rfl, ran, rfl⟩

/-- The counters are right after a step exactly if it met the condition. -/
def RightIf (next : ApeGlobal) (condition : Prop) : Prop := Manned next ∧ (Counted next ↔ condition)

theorem settled_same (manned : Manned ape) (counted : Counted ape) {condition : Prop} (met : condition) :
    RightIf ape condition := ⟨manned, iff_of_true counted met⟩

/-- The step changes nothing that is counted. -/
theorem settled_aside (manned : Manned ape) (counted : Counted ape) {run : World → Except Stop World}
    (reached : ape.on slot run = .ok next)
    (harmless : ∀ world new, run world = .ok new → Uncounted world new ∧ new.socket.jobs = world.socket.jobs)
    {condition : Prop} (met : condition) : RightIf next condition := by
  rcases on_cases reached with ⟨-, rfl⟩ | ⟨socket, new, live, ran, rfl⟩
  · exact settled_same manned counted met
  · obtain ⟨kept, same⟩ := harmless _ _ ran
    obtain ⟨duty, single⟩ := manned socket (live_member live)
    have ended : Single new.socket.jobs duty := same.symm ▸ single
    refine ⟨store_manned manned ended, iff_of_true (store_kept counted live kept ?_) met⟩
    rw [bytes_single ended, bytes_single single]

/-- A condition on the socket that a call is about. -/
theorem live_all (live : ape.live slot = some socket) {condition : ApeSocket → Prop} :
    (∀ other, ape.live slot = some other → condition other) ↔ condition socket := by
  refine ⟨fun all => all socket live, fun holds other same => ?_⟩
  cases live.symm.trans same
  exact holds

theorem settled_new (manned : Manned ape) (counted : Counted ape) :
    RightIf { ape with sockets := ape.sockets ++ [some { state := .pending }] } True := by
  have fresh : Single (apeInitPoolList 2 : PoolList Job) (.idle false) := ⟨⟨_, staffed_init⟩, by simp⟩
  have empty : bytesQueued { state := .pending } = 0 := @bytes_single { state := .pending } (.idle false) fresh
  refine ⟨?_, iff_of_true { each := ?_, total := ?_ } trivial⟩
  · intro other member
    rcases List.mem_append.mp member with old | new
    · exact manned other old
    · cases List.mem_singleton.mp new
      exact ⟨_, fresh⟩
  · intro other member
    rcases List.mem_append.mp member with old | new
    · exact counted.each other old
    · cases List.mem_singleton.mp new
      exact empty.symm
  · rw [bytesInAll, List.map_append, List.sum_append]
    rw [List.map_singleton, List.sum_singleton, bytesOf, empty, Nat.add_zero]
    exact counted.total

theorem settled_free (manned : Manned ape) (counted : Counted ape)
    (reached : ape.perform kernel ssl fuel (.free slot) = .ok next) : RightIf next True := by
  simp only [ApeGlobal.perform] at reached
  cases live : ape.live slot with
  | none =>
    simp only [live] at reached
    cases reached
    exact settled_same manned counted trivial
  | some socket =>
    obtain ⟨duty, single⟩ := manned socket (live_member live)
    obtain ⟨unused, staffed⟩ := single.1
    have freed := @free_staffed [(0, duty)] unused (ape.world socket) staffed
    simp only [live, freed] at reached
    cases reached
    have stock : stockpile [(0, duty)] = duty.stock := List.flatMap_singleton _ _
    have removed := bytes_set (live_here live) none
    have among := bytes_le (live_here live)
    simp only [bytesOf, bytes_single single] at removed among
    refine ⟨?_, iff_of_true { each := ?_, total := ?_ } trivial⟩
    · intro other member
      exact manned other ((List.mem_or_eq_of_mem_set member).resolve_right (by simp))
    · intro other member
      exact counted.each other ((List.mem_or_eq_of_mem_set member).resolve_right (by simp))
    · show (ape.totalMemoryBuffered - unsent (stockpile [(0, duty)])).toNat = bytesInAll (ape.sockets.set slot none)
      have bound := ape.totalMemoryBuffered.isLt
      have total := counted.total
      rw [stock, unsent_ofNat, BitVec.toNat_sub, BitVec.toNat_ofNat]
      omega

theorem settled_doJobs (manned : Manned ape) (counted : Counted ape) (live : ape.live slot = some socket)
    {started : ApeSocket} (alike : Uncounted (ape.world socket) (ape.world started)) (same : started.jobs = socket.jobs)
    {new : World} (done : ApeGlobal.doJobs kernel ssl fuel (ape.world started) = .ok new) :
    RightIf (ape.store slot new) (TakesNone ssl ape socket) := by
  obtain ⟨duty, single⟩ := manned socket (live_member live)
  have starts : Single (ape.world started).socket.jobs duty := same.symm ▸ single
  obtain ⟨⟨last, ret⟩, outcome, same_world⟩ := returned_map done
  obtain ⟨result, returned⟩ : ∃ result, apeSocketDoJobsSecure kernel ssl fuel (ape.world started) = some result := by
    cases returned : apeSocketDoJobsSecure kernel ssl fuel (ape.world started) with
    | none =>
      rw [returned] at outcome
      cases outcome
    | some result => exact ⟨result, rfl⟩
  obtain ⟨after, code, more, rfl, kept, ended, left⟩ := doJobs_single starts returned
  rw [returned] at outcome
  cases outcome
  subst same_world
  have uncounted : Uncounted (ape.world socket) last :=
    ⟨kept.bytes.trans alike.bytes, kept.total.trans alike.total⟩
  have occupied : headActive socket = true ↔ duty.stock ≠ [] := @single_occupied (ape.world socket) duty single
  refine ⟨store_manned manned ended, ?_⟩
  rcases left with ⟨none, stock⟩ | ⟨taken, packet, rest, stock, fewer⟩
  · refine iff_of_true (store_kept counted live uncounted ?_) ?_
    · rw [bytes_single ended, bytes_single single, stock]
    · refine none.imp (fun empty => ?_) id
      rw [← Bool.not_eq_true, occupied, not_not]
      exact empty
  · refine iff_of_false (store_lost counted live uncounted ?_) ?_
    · obtain ⟨sent, rfl⟩ := fewer
      have positive : 0 < (packet.len - packet.offset).toNat := single_positive single stock
      have bytes : unsentBytes (packet :: (sent ++ more.stock)) =
          (packet.len - packet.offset).toNat + unsentBytes (sent ++ more.stock) := List.sum_cons
      rw [bytes_single ended, bytes_single single, stock, bytes, unsentBytes_append]
      omega
    · rintro (quiet | refused)
      · rw [occupied.mpr (by simp [stock])] at quiet
        cases quiet
      · cases taken.symm.trans refused

/-- What a write comes to. -/
theorem written_cases (manned : Manned ape) (live : ape.live slot = some socket) {data : DataObject} {dataType : DataAutorelease}
    {new : World} (done : (Stop.outcome (some (apeSocketWriteSecure ssl data.bytes dataType (ape.world socket)))).map
      (fun result => { result.1 with handed := result.1.handed + 1 }) = .ok new) :
    ∃ duty, Single socket.jobs duty ∧
      (Queues ssl (ape.world socket) data.bytes ∧ (∃ more, Queued data.bytes (ape.world socket) new duty more) ∨
        ¬ Queues ssl (ape.world socket) data.bytes ∧ Uncounted (ape.world socket) new ∧ Single new.socket.jobs duty ∧
          queuedSuffixes new.out = queuedSuffixes ape.out) := by
  obtain ⟨duty, single⟩ := manned socket (live_member live)
  obtain ⟨next, ret, written, cases⟩ := @write_single ssl (ape.world socket) duty data.bytes dataType single data.object
  rw [written] at done
  cases done
  refine ⟨duty, single, cases.imp (And.imp id ?_) (And.imp id (And.imp ?_ id))⟩
  · rintro ⟨more, queued⟩
    exact ⟨more, { limit := queued.limit, bytes := queued.bytes, total := queued.total, single := queued.single,
                   stock := queued.stock, log := queued.log, cut := queued.cut }⟩
  · exact fun kept => ⟨kept.bytes, kept.total⟩

theorem step_settled (manned : Manned ape) (counted : Counted ape) {call : SecureCall}
    (reached : ape.perform kernel ssl fuel call = .ok next) : RightIf next (StaysCounted ssl ape call) := by
  cases call with
  | new =>
    cases reached
    exact settled_new manned counted
  | connected slot =>
    rw [ApeGlobal.perform] at reached
    refine settled_aside manned counted reached ?_ trivial
    intro world new ran
    split at ran <;>
      · cases ran
        exact ⟨⟨rfl, rfl⟩, rfl⟩
  | setBufferMaxSize slot mb | writable slot =>
    rw [ApeGlobal.perform] at reached
    refine settled_aside manned counted reached ?_ trivial
    intro world new ran
    cases ran
    exact ⟨⟨rfl, rfl⟩, rfl⟩
  | write slot data dataType =>
    rw [ApeGlobal.perform] at reached
    rcases on_cases reached with ⟨gone, rfl⟩ | ⟨socket, new, live, ran, rfl⟩
    · exact settled_same manned counted fun socket live => by cases gone.symm.trans live
    · rw [StaysCounted, live_all live]
      obtain ⟨duty, single, ⟨queues, more, queued⟩ | ⟨free, kept, same, -⟩⟩ := written_cases manned live ran
      · refine ⟨store_manned manned queued.single, ?_⟩
        rw [store_queued data.object counted live single queued]
        exact ⟨fun fits _ => fits, fun fits => fits queues⟩
      · refine ⟨store_manned manned same, iff_of_true (store_kept counted live kept ?_) fun queues => absurd queues free⟩
        rw [bytes_single same, bytes_single single]
  | readable slot =>
    rw [ApeGlobal.perform] at reached
    rcases on_cases reached with ⟨gone, rfl⟩ | ⟨socket, new, live, ran, rfl⟩
    · exact settled_same manned counted fun socket live => by cases gone.symm.trans live
    · rw [StaysCounted, live_all live]
      by_cases retries : socket.needWrite = true
      · rw [if_pos (show (ape.world socket).socket.needWrite = true from retries)] at ran
        obtain ⟨kept, settled⟩ := @settled_doJobs _ _ _ _ _ _ manned counted live
          { socket with needWrite := false } ⟨rfl, rfl⟩ rfl _ ran
        exact ⟨kept, settled.trans ⟨fun none _ => none, fun none => none retries⟩⟩
      · rw [if_neg (show ¬ (ape.world socket).socket.needWrite = true from retries)] at ran
        cases ran
        obtain ⟨duty, single⟩ := manned socket (live_member live)
        exact ⟨store_manned manned single,
          iff_of_true (store_kept counted live ⟨rfl, rfl⟩ rfl) fun again => absurd again retries⟩
  | doJobs slot =>
    rw [ApeGlobal.perform] at reached
    rcases on_cases reached with ⟨gone, rfl⟩ | ⟨socket, new, live, ran, rfl⟩
    · exact settled_same manned counted fun socket live => by cases gone.symm.trans live
    · rw [StaysCounted, live_all live]
      exact settled_doJobs manned counted live ⟨rfl, rfl⟩ rfl ran
  | free slot => exact settled_free manned counted reached

/-- The code compares the limit that it computes with the counter. -/
theorem overflows_fair {bytes : Nat} (count : socket.currentBufferMemoryBytes.toNat = bytes) :
    (Overflows socket → socket.maxBufferMemoryMb.toNat * 1024 * 1024 < bytes) ↔ ¬ CutsEarly socket.maxBufferMemoryMb bytes := by
  have compared : Overflows socket ↔ socket.maxBufferMemoryMb ≠ 0#64 ∧
      (socket.maxBufferMemoryMb * 1024#64 * 1024#64).toNat < bytes := by
    rw [Overflows, BitVec.ult, decide_eq_true_iff, count]
  rw [compared, CutsEarly]
  constructor
  · rintro fair ⟨limited, beyond, within⟩
    exact absurd (fair ⟨limited, beyond⟩) (Nat.not_lt.mpr within)
  · rintro early ⟨limited, beyond⟩
    exact Nat.lt_of_not_le fun within => early ⟨limited, beyond, within⟩

theorem step_fair (manned : Manned ape) {call : SecureCall} (reached : ape.perform kernel ssl fuel call = .ok next)
    (counted : Counted next) : FairCut kernel ssl fuel ape call ↔ StaysFair ssl ape call := by
  cases call with
  | write slot data dataType =>
    have stepped : ape.perform kernel ssl fuel (.write slot data dataType) = .ok next := reached
    rw [ApeGlobal.perform] at reached
    rcases on_cases reached with ⟨gone, rfl⟩ | ⟨socket, new, live, ran, rfl⟩
    · refine iff_of_true (fun next other same held => ?_) (fun other held => by cases gone.symm.trans held)
      cases stepped.symm.trans same
      cases gone.symm.trans held
    · have fair : FairCut kernel ssl fuel ape (.write slot data dataType) ↔
          (new.socket.state = .shutdown → queuedSuffixes new.out ≠ queuedSuffixes ape.out →
            new.socket.maxBufferMemoryMb.toNat * 1024 * 1024 < bytesQueued new.socket) := by
        rw [FairCut]
        refine ⟨fun all => all _ _ stepped (store_live live), fun holds other socket same held => ?_⟩
        cases stepped.symm.trans same
        cases (store_live live).symm.trans held
        exact holds
      rw [fair, StaysFair, live_all live]
      obtain ⟨duty, single, ⟨queues, more, queued⟩ | ⟨free, -, -, log⟩⟩ := written_cases manned live ran
      · have bytes : bytesQueued new.socket = bytesQueued socket + data.bytes.length :=
          queued_bytes data.object single queued
        have count : new.socket.currentBufferMemoryBytes.toNat = bytesQueued new.socket :=
          counted.each new.socket (live_member (store_live live))
        have differs : queuedSuffixes new.out ≠ queuedSuffixes ape.out := by
          rw [queued.log]
          exact fun same => absurd (List.self_eq_append_right.mp same.symm) (by simp)
        have limit : new.socket.maxBufferMemoryMb = socket.maxBufferMemoryMb := queued.limit
        have early := overflows_fair count
        rw [limit, bytes] at early
        rw [queued.cut, limit, bytes]
        exact ⟨fun holds _ => early.mp fun overflows => holds overflows differs,
          fun fair overflows _ => early.mpr (fair queues) overflows⟩
      · exact iff_of_true (fun _ differs => absurd log differs) fun queues => absurd queues free
  | new | connected | setBufferMaxSize | readable | writable | doJobs | free => exact Iff.rfl

end Step

section Runs

variable (kernel : Kernel) (ssl : Nat → SslReply) (fuel : Nat) (calls : List SecureCall) (last : ApeGlobal)
  (reached : runAll (ApeGlobal.perform kernel ssl fuel) {} calls = .ok last)

include reached

theorem counted_iff : Throughout (ApeGlobal.perform kernel ssl fuel) {} calls Counted ↔
    EachStep (ApeGlobal.perform kernel ssl fuel) {} calls (StaysCounted ssl) := by
  apply @throughout_iff_history _ _ _ _ _ _ _ _ fun before ape =>
    runAll (ApeGlobal.perform kernel ssl fuel) {} before = .ok ape ∧ Manned ape ∧ Counted ape
  · exact ⟨rfl, by simp [Manned], { each := by simp, total := rfl }⟩
  · exact fun _ _ ape _ history => history.2.2
  · rintro before call after ape next split ⟨middle, manned, counted⟩ met stepped
    obtain ⟨kept, settled⟩ := step_settled manned counted stepped
    exact ⟨(runAll_snoc middle).trans stepped, kept, settled.mpr met⟩
  · rintro before call after ape rfl ⟨middle, manned, counted⟩ unmet
    obtain ⟨next, stepped⟩ := runAll_middle reached middle
    obtain ⟨-, settled⟩ := step_settled manned counted stepped
    exact ⟨next, stepped, fun still => unmet (settled.mp still)⟩

/-- The counters are right throughout a run, and every cut is due, exactly if the jobs never take a packet and what is
    queued stays within what a `size_t` can count. -/
theorem buffers_counted_iff :
    Throughout (ApeGlobal.perform kernel ssl fuel) {} calls Counted ∧
        EachStep (ApeGlobal.perform kernel ssl fuel) {} calls (FairCut kernel ssl fuel) ↔
      EachStep (ApeGlobal.perform kernel ssl fuel) {} calls fun ape call =>
        StaysCounted ssl ape call ∧ StaysFair ssl ape call := by
  have counts := counted_iff kernel ssl fuel calls last reached
  have same : Throughout (ApeGlobal.perform kernel ssl fuel) {} calls Counted → ∀ before call after ape,
      calls = before ++ call :: after → runAll (ApeGlobal.perform kernel ssl fuel) {} before = .ok ape →
      (FairCut kernel ssl fuel ape call ↔ StaysFair ssl ape call) := by
    rintro counted before call after ape rfl middle
    have manned : Manned ape := by
      apply @run_history _ _ _ _ _ _ _ (fun _ => Manned) (by simp [Manned]) ?_ before (call :: after) rfl middle
      intro before' call' after' ape' next' split middle' manned stepped
      exact (step_settled manned (counted before' _ ape' split middle') stepped).1
    obtain ⟨next, stepped⟩ := runAll_middle reached middle
    refine step_fair manned stepped (counted (before ++ [call]) after next ?_ ((runAll_snoc middle).trans stepped))
    rw [List.append_assoc, List.singleton_append]
  constructor
  · rintro ⟨counted, fair⟩ before call after ape split middle
    exact ⟨counts.mp counted before call after ape split middle,
      (same counted before call after ape split middle).mp (fair before call after ape split middle)⟩
  · intro each
    have counted := counts.mpr fun before call after ape split middle => (each before call after ape split middle).1
    refine ⟨counted, fun before call after ape split middle => ?_⟩
    exact (same counted before call after ape split middle).mpr (each before call after ape split middle).2

end Runs

/-- Two bytes have to wait, and then they are sent. -/
def sentAtLast : List SecureCall := [.new, .connected 0, .write 0 twoBytes .static, .writable 0, .doJobs 0]

theorem sent_bytes_still_counted :
    ∃ last, runAll (ApeGlobal.perform hesitant (fun call => if call = 0 then .wantWrite else .written) 6) {} sentAtLast =
        .ok last ∧ ¬ Counted last :=
  ⟨_, rfl, fun counted => absurd counted.total (by decide)⟩

/-- On two sockets bytes have to wait, and one of them is freed with its bytes. -/
def waitingBytes : List SecureCall :=
  [.new, .connected 0, .setBufferMaxSize 0 1, .write 0 twoBytes .static, .readable 0, .new, .connected 1,
    .write 1 twoBytes .own, .writable 1, .doJobs 1, .free 0]

theorem waitingBytes_counted :
    Throughout (ApeGlobal.perform hesitant (fun _ => .wantRead) 6) {} waitingBytes Counted ∧
      EachStep (ApeGlobal.perform hesitant (fun _ => .wantRead) 6) {} waitingBytes
        (FairCut hesitant (fun _ => .wantRead) 6) := by
  obtain ⟨last, reached⟩ : ∃ last, runAll (ApeGlobal.perform hesitant (fun _ => .wantRead) 6) {} waitingBytes = .ok last :=
    ⟨_, rfl⟩
  exact (buffers_counted_iff hesitant (fun _ => .wantRead) 6 waitingBytes last reached).mpr (each_of_check (by decide))

end ZapeProof
