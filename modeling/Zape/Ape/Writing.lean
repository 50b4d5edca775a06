import Zape.Ape.Queueing

/-! One call of `APE_socket_write` on a socket without a pending job. -/
namespace ZapeProof

open Machine ZapeModel

/-- The bytes of the data that the successive `write` calls accepted. -/
def writtenBytes (data : List Byte) (out : List SocketEvent) : List Byte :=
  out.flatMap fun
    | .write offset _ (.accepted count) => (data.drop offset).take count
    | _ => []

def heldAt (jobs : PoolList Job) (slot : Nat) : List Byte :=
  match (jobs.node slot).content with
  | .data plist => heldBytes plist
  | .null | .fd _ => []

/-- What a call of `APE_socket_write` should do, by its system calls, what it queues, what the list then holds and
    what it returns. -/
structure ProperWrite (data : List Byte) (events : List SocketEvent) (held : List Byte) (ret : Int) : Prop where
  inside : ∀ offset length reply, .write offset length reply ∈ events → offset + length ≤ data.length
  ordered : ∀ before after, events = before ++ after → writtenBytes data before <+: data
  finish : (writtenBytes data events = data ∧ queuedSuffixes events = [] ∧ held = [] ∧ ret = 0) ∨
    ∃ suffix, writtenBytes data events ++ suffix = data ∧ queuedSuffixes events = [suffix] ∧ held = suffix ∧
      ret = suffix.length

/-- No job is pending, and the current slot can take one. -/
structure Idle (socket : ApeSocket) (slot : Nat) : Prop where
  head : ∃ head, socket.jobs.head = some head ∧ (socket.jobs.node head).active = false
  current : socket.jobs.current = some slot
  inactive : (socket.jobs.node slot).flags &&& apeSocketJobActive = 0#32
  holds : JobHolds (socket.jobs.node slot).content []

section Calls

variable {kernel : Kernel} {data : List Byte} {dataType : DataAutorelease} {world : World} {slot : Nat}

def WritesProperly (kernel : Kernel) (data : List Byte) (dataType : DataAutorelease) (world : World) (slot : Nat) :
    Prop :=
  ∃ fuel next ret events, apeSocketWrite kernel data dataType fuel world = some (.ok (next, ret)) ∧
    next.out = world.out ++ events ∧ ProperWrite data events (heldAt next.socket.jobs slot) ret

theorem intOfSize_small {count : Nat} (int : count < 2 ^ 31) : intOfSize (BitVec.ofNat 64 count) = count := by
  rw [intOfSize, BitVec.toInt_eq_toNat_cond, BitVec.toNat_setWidth, BitVec.toNat_ofNat]
  split <;> omega

theorem size_ne_zero {count : Nat} (positive : 0 < count) (short : count < 2 ^ 63) : BitVec.ofNat 64 count ≠ 0#64 := by
  intro zero
  have same := congrArg BitVec.toNat zero
  rw [toNat_ofNat_size short, BitVec.toNat_ofNat] at same
  omega

/-- The remaining bytes are never counted down: `ape_min(n, 0)` is 0. -/
theorem remaining_kept (size : SizeT) (count : Nat) : size - BitVec.ofInt 64 (apeMin count 0) = size := by
  have zero : apeMin count 0 = 0 := by
    unfold apeMin
    split <;> omega
  rw [zero]
  simp

theorem heldAt_stored (plist : PoolList Packet) (suffix : List Byte) (total : SizeT) :
    heldAt (stored world slot plist suffix total).socket.jobs slot = heldBytes plist := by
  simp [heldAt, stored, PoolList.setContent, PoolList.modify]

theorem Idle.blocked (idle : Idle world.socket slot) (wouldBlock : Bool) :
    Idle { world.socket with wouldBlock } slot :=
  { head := idle.head, current := idle.current, inactive := idle.inactive, holds := idle.holds }

theorem queueData_idle (idle : Idle world.socket slot) (int : data.length < 2 ^ 31) {offset : SizeT}
    (inside : offset.toNat < data.length) (dataType : DataAutorelease) :
    ∃ next events, apeSocketQueueData world data offset dataType = .ok next ∧
      next.out = world.out ++ .queued (data.drop offset.toNat) :: events ∧
      (∀ event ∈ events, aside event = true) ∧ heldAt next.socket.jobs slot = data.drop offset.toNat := by
  obtain ⟨plist, total, state, events, queued, packets, only⟩ :=
    queueData_stores idle.current (.inr idle.inactive) idle.holds (by omega) inside dataType
  refine ⟨_, events, queued, ?_, only, ?_⟩
  · simp [stored]
  · have held := @heldAt_stored world slot plist (data.drop offset.toNat) total
    rw [held_packets packets, List.nil_append, List.flatten_singleton] at held
    exact held

theorem writtenBytes_append (left right : List SocketEvent) :
    writtenBytes data (left ++ right) = writtenBytes data left ++ writtenBytes data right := List.flatMap_append

theorem written_aside {events : List SocketEvent} (only : ∀ event ∈ events, aside event = true) :
    writtenBytes data events = [] := by
  unfold writtenBytes
  rw [List.flatMap_eq_nil_iff]
  intro event member
  have this := only event member
  cases event <;> simp_all [aside]

theorem Idle.empty (idle : Idle world.socket slot) : heldAt world.socket.jobs slot = [] := by
  rcases idle.holds with ⟨null, -⟩ | ⟨plist, list, packets⟩
  · simp [heldAt, null]
  · simp [heldAt, list, held_packets packets]

theorem proper_queued {before events : List SocketEvent}
    (nothing : ∀ event ∈ before, event = .write 0 data.length .again) (only : ∀ event ∈ events, aside event = true) :
    ProperWrite data (before ++ .queued data :: events) data data.length := by
  have none : ∀ calls, (∀ event ∈ calls, event ∈ before ++ .queued data :: events) → writtenBytes data calls = [] := by
    intro calls inside
    unfold writtenBytes
    rw [List.flatMap_eq_nil_iff]
    intro event member
    rcases List.mem_append.mp (inside event member) with first | later
    · rw [nothing event first]
    · rcases List.mem_cons.mp later with rfl | last
      · rfl
      · have this := only event last
        cases event <;> simp_all [aside]
  have empty : queuedSuffixes before = [] := by
    unfold queuedSuffixes
    rw [List.filterMap_eq_nil_iff]
    intro event member
    rw [nothing event member]
  refine { inside := ?_, ordered := ?_, finish := .inr ⟨data, ?_, ?_, rfl, rfl⟩ }
  · intro offset length reply member
    rcases List.mem_append.mp member with first | later
    · cases nothing _ first
      omega
    · rcases List.mem_cons.mp later with same | last
      · cases same
      · cases only _ last
  · rintro done rest split
    rw [none done fun event member => split ▸ List.mem_append_left rest member]
    exact List.nil_prefix
  · rw [none _ fun event member => member, List.nil_append]
  · rw [queuedSuffixes_append, empty]
    show data :: queuedSuffixes events = [data]
    rw [queuedSuffixes_aside only]

/-- After a call of `write` that was offered so many bytes at an offset. -/
def wrote (kernel : Kernel) (world : World) (offset length : Nat) : World :=
  { world with calls := world.calls + 1 }.emit [.write offset length (kernel.reply world.calls length)]

theorem write_starts (online : world.socket.state = .online) {head : Nat} (first : world.socket.jobs.head = some head)
    (some_data : data ≠ []) (object : data.length < 2 ^ 63) (fuel : Nat) :
    apeSocketWrite kernel data dataType fuel world =
      if world.socket.wouldBlock ∨ (world.socket.jobs.node head).active then
        some ((apeSocketQueueData world data 0#64 dataType).map fun next =>
          (next, intOfSize (BitVec.ofNat 64 data.length)))
      else loop (writeTurn kernel data dataType) fuel { world, rBytes := BitVec.ofNat 64 data.length } := by
  have nonzero := size_ne_zero (List.length_pos_of_ne_nil some_data) object
  simp only [apeSocketWrite, online, ne_eq, not_true_eq_false, nonzero, or_self, ite_false, first]

theorem turn_within {writing : Writing} (object : data.length < 2 ^ 63) (within : writing.tBytes.toNat < data.length)
    (whole : writing.rBytes = BitVec.ofNat 64 data.length) :
    writeTurn kernel data dataType writing =
      let called := wrote kernel writing.world writing.tBytes.toNat data.length
      match kernel.reply writing.world.calls data.length with
      | .accepted count =>
        .again { world := called, tBytes := writing.tBytes + BitVec.ofNat 64 count, rBytes := writing.rBytes }
      | .again =>
        .done ((apeSocketQueueData { called with socket := { called.socket with wouldBlock := true } } data
          writing.tBytes dataType).map fun next => (next, intOfSize (BitVec.ofNat 64 data.length)))
      | .interrupted | .failed => .done (.ok (writeReturn dataType called true)) := by
  have length := toNat_ofNat_size object
  have going : writing.tBytes.ult (BitVec.ofNat 64 data.length) = true := by
    rw [BitVec.ult, length]
    simpa using within
  have nonzero := @size_ne_zero data.length (by omega) object
  rw [writeTurn, if_pos going, whole, length]
  simp only [remaining_kept, ne_eq, nonzero, not_false_eq_true, ite_true]
  rfl

theorem turn_beyond {writing : Writing} (object : data.length < 2 ^ 63) (beyond : data.length ≤ writing.tBytes.toNat) :
    writeTurn kernel data dataType writing = .done (.ok (writeReturn dataType writing.world false)) := by
  have length := toNat_ofNat_size object
  have ended : ¬ writing.tBytes.ult (BitVec.ofNat 64 data.length) = true := by
    rw [BitVec.ult, length]
    simpa using beyond
  rw [writeTurn, if_neg ended]

theorem write_idle (online : world.socket.state = .online) (idle : Idle world.socket slot) (some_data : data ≠ [])
    (int : data.length < 2 ^ 31) (fuel : Nat) :
    apeSocketWrite kernel data dataType fuel world =
      if world.socket.wouldBlock then
        some ((apeSocketQueueData world data 0#64 dataType).map fun next => (next, (data.length : Int)))
      else loop (writeTurn kernel data dataType) fuel { world, rBytes := BitVec.ofNat 64 data.length } := by
  obtain ⟨head, first, quiet⟩ := idle.head
  rw [write_starts online first some_data (by omega)]
  simp only [quiet, Bool.false_eq_true, or_false, intOfSize_small int]

section Proper

variable (online : world.socket.state = .online) (idle : Idle world.socket slot) (some_data : data ≠ [])
  (int : data.length < 2 ^ 31)

include online idle some_data int

theorem proper_of_blocked (blocked : world.socket.wouldBlock = true) :
    WritesProperly kernel data dataType world slot := by
  obtain ⟨next, events, queued, out, only, held⟩ :=
    @queueData_idle data world slot idle int 0#64 (List.length_pos_of_ne_nil some_data) dataType
  refine ⟨0, next, data.length, _, ?_, out, ?_⟩
  · rw [write_idle online idle some_data int, if_pos blocked, queued]
    rfl
  · rw [held]
    exact @proper_queued data [] events (by simp) only

theorem proper_of_again (unblocked : world.socket.wouldBlock = false)
    (again : kernel.reply world.calls data.length = .again) : WritesProperly kernel data dataType world slot := by
  have positive := List.length_pos_of_ne_nil some_data
  have turn := @turn_within kernel data dataType { world, rBytes := BitVec.ofNat 64 data.length } (by omega)
    positive rfl
  simp only [again, intOfSize_small int] at turn
  let called := wrote kernel world 0 data.length
  let blocked : World := { called with socket := { called.socket with wouldBlock := true } }
  have idleHere : Idle blocked.socket slot := idle.blocked true
  obtain ⟨next, events, queued, out, only, held⟩ := @queueData_idle data blocked slot idleHere int 0#64 positive dataType
  refine ⟨1, next, data.length, [.write 0 data.length .again] ++ .queued data :: events, ?_, ?_, ?_⟩
  · rw [write_idle online idle some_data int, unblocked, if_neg (by simp), loop_done turn]
    exact congrArg (fun result => some (result.map fun next => (next, (data.length : Int)))) queued
  · have logged : blocked.out = world.out ++ [.write 0 data.length .again] := by
      show world.out ++ [.write 0 data.length (kernel.reply world.calls data.length)] = _
      rw [again]
    rw [out, logged, List.append_assoc]
    rfl
  · rw [held]
    exact proper_queued (by simp) only

theorem proper_of_accepted (unblocked : world.socket.wouldBlock = false)
    (accepted : kernel.reply world.calls data.length = .accepted data.length) :
    WritesProperly kernel data dataType world slot := by
  have positive := List.length_pos_of_ne_nil some_data
  have first := @turn_within kernel data dataType { world, rBytes := BitVec.ofNat 64 data.length } (by omega)
    positive rfl
  simp only [accepted] at first
  let written : Writing :=
    { world := wrote kernel world 0 data.length
      tBytes := 0#64 + BitVec.ofNat 64 data.length
      rBytes := BitVec.ofNat 64 data.length }
  have beyond : data.length ≤ written.tBytes.toNat := by
    show data.length ≤ ((0#64 : SizeT) + BitVec.ofNat 64 data.length).toNat
    rw [BitVec.zero_add, toNat_ofNat_size (by omega)]
  have second := @turn_beyond kernel data dataType written (by omega) beyond
  let released := apeSocketReleaseData (.caller world.handed) (if dataType = .copy then .own else dataType)
  have only := release_aside (.caller world.handed) (if dataType = .copy then .own else dataType)
  refine ⟨2, (wrote kernel world 0 data.length).emit released, 0,
    .write 0 data.length (.accepted data.length) :: released, ?_, ?_, ?_⟩
  · rw [write_idle online idle some_data int, unblocked, if_neg (by simp), loop_again first]
    exact loop_done second 0
  · show (world.out ++ [.write 0 data.length (kernel.reply world.calls data.length)]) ++ released = _
    rw [accepted, List.append_assoc]
    rfl
  · have bytes : writtenBytes data (.write 0 data.length (.accepted data.length) :: released) = data := by
      show (data.drop 0).take data.length ++ writtenBytes data released = data
      rw [written_aside only, List.drop_zero, List.take_length, List.append_nil]
    refine { inside := ?_, ordered := ?_, finish := .inl ⟨bytes, ?_, idle.empty, rfl⟩ }
    · intro offset length reply member
      rcases List.mem_cons.mp member with same | last
      · cases same
        omega
      · cases only _ last
    · intro before after split
      rw [split, writtenBytes_append] at bytes
      exact ⟨_, bytes⟩
    · show queuedSuffixes released = []
      exact queuedSuffixes_aside only

end Proper

theorem writeReturn_out (world : World) (ioError : Bool) :
    ∃ more, (writeReturn dataType world ioError).1.out = world.out ++ more := by
  let released := apeSocketReleaseData (.caller world.handed) (if dataType = .copy then .own else dataType)
  cases ioError with
  | false => exact ⟨released, rfl⟩
  | true =>
    obtain ⟨state, events, shut, -⟩ := shutdownNow_kept (world.emit released)
    refine ⟨released ++ events, ?_⟩
    show (apeSocketShutdownNow (world.emit released)).out = _
    rw [shut, ← List.append_assoc]
    rfl

/-- Once `write` is called, the call stays in what can be observed. -/
theorem loop_logged {writing : Writing} (idle : Idle writing.world.socket slot) (int : data.length < 2 ^ 31)
    (whole : writing.rBytes = BitVec.ofNat 64 data.length) {fuel : Nat} {next : World} {ret : Int}
    (returned : loop (writeTurn kernel data dataType) fuel writing = some (.ok (next, ret))) :
    ∃ more, next.out = writing.world.out ++ more ∧ (writing.tBytes.toNat < data.length →
      .write writing.tBytes.toNat data.length (kernel.reply writing.world.calls data.length) ∈ more) := by
  induction fuel generalizing writing with
  | zero => cases returned
  | succ fuel ih =>
    by_cases within : writing.tBytes.toNat < data.length
    · let event := SocketEvent.write writing.tBytes.toNat data.length (kernel.reply writing.world.calls data.length)
      have turn := @turn_within kernel data dataType writing (by omega) within whole
      dsimp only at turn
      suffices found : ∃ more, next.out = (writing.world.out ++ [event]) ++ more by
        obtain ⟨more, out⟩ := found
        exact ⟨event :: more, by rw [out, List.append_assoc, List.singleton_append], fun _ => List.mem_cons_self⟩
      cases reply : kernel.reply writing.world.calls data.length with
      | accepted count =>
        simp only [reply] at turn
        rw [loop_again turn] at returned
        let advanced : Writing :=
          { world := wrote kernel writing.world writing.tBytes.toNat data.length
            tBytes := writing.tBytes + BitVec.ofNat 64 count
            rBytes := writing.rBytes }
        obtain ⟨more, out, -⟩ := @ih advanced idle whole returned
        exact ⟨more, out⟩
      | again =>
        simp only [reply] at turn
        rw [loop_done turn] at returned
        let called := wrote kernel writing.world writing.tBytes.toNat data.length
        let blocked : World := { called with socket := { called.socket with wouldBlock := true } }
        have idleHere : Idle blocked.socket slot := idle.blocked true
        obtain ⟨reached, events, queued, out, -⟩ := queueData_idle idleHere int within dataType
        have result : (Except.ok reached : Except Fault World).map (fun next =>
            (next, intOfSize (BitVec.ofNat 64 data.length))) = .ok (next, ret) := by
          rw [← queued]
          exact Option.some.inj returned
        cases result
        exact ⟨_, out⟩
      | interrupted | failed =>
        simp only [reply] at turn
        rw [loop_done turn] at returned
        cases returned
        exact @writeReturn_out dataType (wrote kernel writing.world writing.tBytes.toNat data.length) true
    · rw [loop_done (turn_beyond (by omega) (by omega))] at returned
      cases returned
      obtain ⟨more, out⟩ := @writeReturn_out dataType writing.world false
      exact ⟨more, out, fun inside => absurd inside within⟩

theorem improper_of_part (online : world.socket.state = .online) (idle : Idle world.socket slot)
    (some_data : data ≠ []) (int : data.length < 2 ^ 31) (unblocked : world.socket.wouldBlock = false) {count : Nat}
    (accepted : kernel.reply world.calls data.length = .accepted count) (part : count < data.length) :
    ¬ WritesProperly kernel data dataType world slot := by
  rintro ⟨fuel, next, ret, events, returned, out, proper⟩
  have positive := List.length_pos_of_ne_nil some_data
  have counted : 0 < count := (kernel.honest _ _ _ accepted).2.2 positive
  rw [write_idle online idle some_data int, unblocked, if_neg (by simp)] at returned
  have turn := @turn_within kernel data dataType { world, rBytes := BitVec.ofNat 64 data.length } (by omega)
    positive rfl
  simp only [accepted] at turn
  cases fuel with
  | zero => cases returned
  | succ fuel =>
    rw [loop_again turn] at returned
    obtain ⟨more, later, logged⟩ := loop_logged idle int rfl returned
    have offset : ((0#64 : SizeT) + BitVec.ofNat 64 count).toNat = count := by
      rw [BitVec.zero_add, toNat_ofNat_size (by omega)]
    rw [offset] at logged
    let first := SocketEvent.write 0 data.length (kernel.reply world.calls data.length)
    have split : events = first :: more := by
      have both : world.out ++ events = world.out ++ (first :: more) := by
        rw [← out, later]
        show (world.out ++ [first]) ++ more = _
        rw [List.append_assoc, List.singleton_append]
      exact List.append_cancel_left both
    have beyond := proper.inside count data.length _ (split ▸ List.mem_cons_of_mem first (logged part))
    omega

theorem writes_properly_iff (online : world.socket.state = .online) (idle : Idle world.socket slot)
    (steady : ∀ call offered, kernel.reply call offered ≠ .interrupted ∧ kernel.reply call offered ≠ .failed)
    (int : data.length < 2 ^ 31) :
    WritesProperly kernel data dataType world slot ↔ data ≠ [] ∧ (world.socket.wouldBlock = true ∨
      kernel.reply world.calls data.length = .again ∨
      kernel.reply world.calls data.length = .accepted data.length) := by
  constructor
  · intro properly
    by_cases some_data : data = []
    · obtain ⟨fuel, next, ret, events, returned, -, proper⟩ := properly
      subst some_data
      rw [apeSocketWrite, if_pos (.inr rfl)] at returned
      cases returned
      rcases proper.finish with ⟨-, -, -, wrong⟩ | ⟨suffix, -, -, -, wrong⟩
      · cases wrong
      · omega
    · refine ⟨some_data, ?_⟩
      cases blocked : world.socket.wouldBlock with
      | true => exact .inl rfl
      | false =>
        refine .inr ?_
        cases reply : kernel.reply world.calls data.length with
        | accepted count =>
          have bound := (kernel.honest _ _ _ reply).1
          by_cases part : count < data.length
          · exact absurd properly (improper_of_part online idle some_data int blocked reply part)
          · have all : count = data.length := by omega
            exact .inr (by rw [all])
        | again => exact .inl rfl
        | interrupted => exact absurd reply (steady _ _).1
        | failed => exact absurd reply (steady _ _).2
  · rintro ⟨some_data, condition⟩
    by_cases blocked : world.socket.wouldBlock = true
    · exact proper_of_blocked online idle some_data int blocked
    · have unblocked : world.socket.wouldBlock = false := by simpa using blocked
      rcases condition with now | again | accepted
      · exact absurd now blocked
      · exact proper_of_again online idle some_data int unblocked again
      · exact proper_of_accepted online idle some_data int unblocked accepted

end Calls

section Fresh

theorem idle_fresh : Idle ({} : World).socket 0 where
  head := ⟨0, rfl, by decide⟩
  current := rfl
  inactive := by decide
  holds := .inl ⟨rfl, rfl⟩

def generous : Kernel where
  reply _ offered := if offered < 2 ^ 63 then .accepted offered else .again
  honest := by
    intro call offered count accepted
    split at accepted
    · cases accepted
      omega
    · cases accepted

theorem honest_bytewise {offered count : Nat} (accepted : Reply.accepted (min offered 1) = .accepted count) :
    count ≤ offered ∧ count < 2 ^ 63 ∧ (0 < offered → 0 < count) := by
  cases accepted
  omega

def miserly : Kernel where
  reply _ offered := .accepted (min offered 1)
  honest _ _ _ accepted := honest_bytewise accepted

theorem writes_properly_iff_generous : WritesProperly generous [0x41#8, 0x42#8] .copy {} 0 := by
  have steady : ∀ call offered, generous.reply call offered ≠ .interrupted ∧ generous.reply call offered ≠ .failed := by
    intro call offered
    unfold generous
    dsimp only
    split <;> simp
  exact (@writes_properly_iff generous [0x41#8, 0x42#8] .copy {} 0 rfl idle_fresh steady (by decide)).mpr
    ⟨by simp, .inr (.inr rfl)⟩

/-- After the first of two bytes, two more are offered. -/
theorem partial_write_reads_beyond : ¬ WritesProperly miserly [0x41#8, 0x42#8] .copy {} 0 :=
  @improper_of_part miserly [0x41#8, 0x42#8] .copy {} 0 rfl idle_fresh (by simp) (by decide) rfl 1 rfl (by decide)

end Fresh

end ZapeProof
