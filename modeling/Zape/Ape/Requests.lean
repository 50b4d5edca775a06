import Zape.Ape.Api
import Zape.Ape.Draining

/-! Every call takes one slot of the job list at most, and `ape_socket_do_jobs` only ends jobs. -/
namespace ZapeProof

open Machine ZapeModel

/-- Two job lists that differ at most in what their jobs point to. -/
structure SameSlots (left right : PoolList Job) : Prop where
  nexts : nexts left = nexts right
  flags : flagsOf left = flagsOf right
  head : left.head = right.head
  queue : left.queue = right.queue
  current : left.current = right.current
  count : left.count = right.count

theorem SameSlots.refl (jobs : PoolList Job) : SameSlots jobs jobs := ⟨rfl, rfl, rfl, rfl, rfl, rfl⟩

theorem SameSlots.trans {left middle right : PoolList Job} (first : SameSlots left middle)
    (second : SameSlots middle right) : SameSlots left right :=
  { nexts := first.nexts.trans second.nexts, flags := first.flags.trans second.flags,
    head := first.head.trans second.head, queue := first.queue.trans second.queue,
    current := first.current.trans second.current, count := first.count.trans second.count }

theorem sameSlots_setContent (jobs : PoolList Job) (slot : Nat) (content : Job) :
    SameSlots (jobs.setContent slot content) jobs :=
  ⟨nexts_setContent _ _ _, flagsOf_setContent _ _ _, rfl, rfl, rfl, rfl⟩

theorem SameSlots.shape {left right : PoolList Job} (same : SameSlots left right) {nodes : List Nat}
    (shape : Shape right nodes) : Shape left nodes where
  chain := by
    rw [same.nexts, same.head]
    exact shape.chain
  nodup := shape.nodup
  below := by
    rw [same.count]
    exact shape.below
  queue := by
    rw [same.queue]
    exact shape.queue

def FreeBehind (jobs : PoolList Job) : Prop :=
  ∃ front current rest, Shape jobs (front ++ current :: rest) ∧ jobs.current = some current ∧
    (∀ slot ∈ rest, flagsOf jobs slot &&& apeSocketJobActive = 0#32) ∧
    ∀ slot, jobs.count ≤ slot → flagsOf jobs slot = 0#32

def kindOf (jobs : PoolList Job) (slot : Nat) : BitVec 32 :=
  flagsOf jobs slot &&& ~~~(apePoolAllFlags ||| apeSocketJobActive)

/-- One slot was taken for a job of a type: a free one, or the data of a `WRITEV` job is added to. -/
def Took (type : JobType) (old new : PoolList Job) : Prop :=
  ∃ slot,
    (flagsOf old slot &&& apeSocketJobActive = 0#32 ∨ type = .writev ∧ flagsOf old slot &&& apeSocketJobWritev ≠ 0#32) ∧
      flagsOf new slot &&& apeSocketJobActive ≠ 0#32 ∧ kindOf new slot = kindOf old slot ||| type.flag ∧
      ∀ other, other ≠ slot → flagsOf new other &&& apeSocketJobActive = flagsOf old other &&& apeSocketJobActive ∧
        kindOf new other = kindOf old other

def Ended (old new : PoolList Job) : Prop :=
  ∀ slot, flagsOf new slot = flagsOf old slot ∨ flagsOf new slot = flagsOf old slot &&& ~~~apeSocketJobActive

theorem SameSlots.freeBehind {left right : PoolList Job} (same : SameSlots left right) (free : FreeBehind right) :
    FreeBehind left := by
  obtain ⟨front, current, rest, shape, points, behind, beyond⟩ := free
  refine ⟨front, current, rest, same.shape shape, same.current.trans points, ?_, ?_⟩
  · rw [same.flags]
    exact behind
  · rw [same.flags, same.count]
    exact beyond

theorem kind_taken (flags : BitVec 32) (type : JobType) :
    (flags ||| (apeSocketJobActive ||| type.flag)) &&& ~~~(apePoolAllFlags ||| apeSocketJobActive) =
      flags &&& ~~~(apePoolAllFlags ||| apeSocketJobActive) ||| type.flag := by
  have bits : (apeSocketJobActive ||| type.flag) &&& ~~~(apePoolAllFlags ||| apeSocketJobActive) = type.flag := by
    cases type <;> decide
  rw [BitVec.and_comm, BitVec.and_or_distrib_left, BitVec.and_comm _ flags, BitVec.and_comm _ (_ ||| _), bits]

theorem kind_writev {jobs : PoolList Job} {slot : Nat} (data : flagsOf jobs slot &&& apeSocketJobWritev ≠ 0#32)
    {type : JobType} (kind : kindOf jobs slot = type.flag) : type = .writev := by
  have masked : kindOf jobs slot &&& apeSocketJobWritev = flagsOf jobs slot &&& apeSocketJobWritev := by
    rw [kindOf, BitVec.and_assoc]
    exact congrArg (flagsOf jobs slot &&& ·) (by decide)
  rw [kind] at masked
  rw [← masked] at data
  cases type with
  | writev => rfl
  | sendfile | shutdown => exact absurd (by decide) data

section Take

variable {jobs : PoolList Job} {slot : Nat} (type : JobType)

theorem took_slot (free : flagsOf jobs slot &&& apeSocketJobActive = 0#32 ∨
    type = .writev ∧ flagsOf jobs slot &&& apeSocketJobWritev ≠ 0#32) : Took type jobs (takeSlot jobs slot type.flag) := by
  refine ⟨slot, free, ?_, ?_, ?_⟩
  · rw [takeSlot_flags, Function.update_self]
    exact taken_active _ _
  · rw [kindOf, takeSlot_flags, Function.update_self, kind_taken]
    rfl
  · intro other differ
    rw [kindOf, takeSlot_flags, Function.update_of_ne differ]
    exact ⟨rfl, rfl⟩

theorem took_grown (beyond : ∀ slot, jobs.count ≤ slot → flagsOf jobs slot = 0#32) :
    Took type jobs (takeSlot (apeGrowPool jobs 2).1 jobs.count type.flag) := by
  have zero := beyond jobs.count (Nat.le_refl _)
  have first : flagsOf (apeGrowPool jobs 2).1 jobs.count = apePoolAlloc := by
    rw [flagsOf_grow, if_pos (by omega), if_pos rfl]
  refine ⟨jobs.count, .inl (by rw [zero]; rfl), ?_, ?_, ?_⟩
  · rw [takeSlot_flags, Function.update_self]
    exact taken_active _ _
  · rw [kindOf, takeSlot_flags, Function.update_self, kind_taken, first, kindOf, zero]
    cases type <;> decide
  · intro other differ
    have same : flagsOf (apeGrowPool jobs 2).1 other = flagsOf jobs other := by
      rw [flagsOf_grow]
      split
      · rw [beyond other (by omega)]
      · rfl
    rw [kindOf, takeSlot_flags, Function.update_of_ne differ, same]
    exact ⟨rfl, rfl⟩

/-- A slot that was taken has nothing active behind it, when the slots behind it were free. -/
theorem freeBehind_take {front rest : List Nat} (bits : BitVec 32) (shape : Shape jobs (front ++ slot :: rest))
    (behind : ∀ other ∈ rest, flagsOf jobs other &&& apeSocketJobActive = 0#32)
    (beyond : ∀ other, jobs.count ≤ other → flagsOf jobs other = 0#32) : FreeBehind (takeSlot jobs slot bits) := by
  have outside : slot ∉ rest := (List.nodup_cons.mp (List.nodup_append.mp shape.nodup).2.1).1
  have below := shape.below slot (by simp)
  refine ⟨front, slot, rest, takeSlot_shape bits shape slot, rfl, ?_, ?_⟩
  · intro other member
    have differ : other ≠ slot := by
      rintro rfl
      exact outside member
    rw [takeSlot_flags, Function.update_of_ne differ]
    exact behind other member
  · intro other high
    have within : jobs.count ≤ other := high
    rw [takeSlot_flags, Function.update_of_ne (by omega)]
    exact beyond other within

end Take

theorem getSlot_took {socket : ApeSocket} (free : FreeBehind socket.jobs) (type : JobType) :
    ∃ next slot, apeSocketJobGetSlot socket type.flag = .ok ({ socket with jobs := next }, slot) ∧
      Took type socket.jobs next ∧ FreeBehind next := by
  obtain ⟨front, current, rest, shape, points, behind, beyond⟩ := free
  rcases @getSlot_cases socket front rest current type.flag shape points with
    ⟨accepts, got⟩ | ⟨-, rfl, got⟩ | ⟨-, slot, left, rfl, got⟩
  · refine ⟨_, current, got, took_slot type ?_, freeBehind_take type.flag shape behind beyond⟩
    rcases accepts with ⟨writev, data⟩ | quiet
    · refine .inr ⟨?_, data⟩
      cases type with
      | writev => rfl
      | sendfile | shutdown => exact absurd writev (by decide)
    · exact .inl quiet
  · have grown := shape_grow shape (show 0 < 2 by omega)
    refine ⟨_, _, got, took_grown type beyond, ?_⟩
    apply @freeBehind_take _ _ (front ++ [current]) [socket.jobs.count + 1] type.flag grown
    · intro other member
      rw [flagsOf_grow, List.mem_singleton.mp member, if_pos (by omega), if_neg (by omega)]
      rfl
    · intro other high
      have within : socket.jobs.count + 2 ≤ other := high
      rw [flagsOf_grow, if_neg (by omega)]
      exact beyond other (by omega)
  · have split : front ++ current :: slot :: left = (front ++ [current]) ++ slot :: left := by simp
    rw [split] at shape
    refine ⟨_, slot, got, took_slot type (.inl (behind slot (by simp))), ?_⟩
    apply freeBehind_take type.flag shape ?_ beyond
    intro other member
    exact behind other (List.mem_cons_of_mem slot member)

section Ends

variable {jobs : PoolList Job}

theorem Ended.refl (jobs : PoolList Job) : Ended jobs jobs := fun _ => .inl rfl

theorem Ended.trans {first second third : PoolList Job} (left : Ended first second) (right : Ended second third) :
    Ended first third := by
  intro slot
  rcases left slot with same | cleared
  · rcases right slot with again | later
    · exact .inl (again.trans same)
    · exact .inr (by rw [later, same])
  · rcases right slot with again | later
    · exact .inr (again.trans cleared)
    · refine .inr ?_
      rw [later, cleared, BitVec.and_assoc, BitVec.and_self]

theorem ended_released (jobs : PoolList Job) (job : Nat) : Ended jobs (released jobs job) := by
  intro slot
  have flags : flagsOf (released jobs job) = Function.update (flagsOf jobs) job _ := flagsOf_setFlags jobs job _
  by_cases same : slot = job
  · subst same
    exact .inr (by rw [flags, Function.update_self])
  · exact .inl (by rw [flags, Function.update_of_ne same])

theorem Ended.inactive {old new : PoolList Job} (ended : Ended old new) {slot : Nat}
    (quiet : flagsOf old slot &&& apeSocketJobActive = 0#32) : flagsOf new slot &&& apeSocketJobActive = 0#32 := by
  rcases ended slot with same | cleared
  · rw [same, quiet]
  · rw [cleared]
    exact released_inactive _

theorem freeBehind_finished (free : FreeBehind jobs) (job : Nat) :
    ∃ moved first, apePoolHeadToCurrent (released jobs job) = .ok (moved, first) ∧ FreeBehind moved ∧ Ended jobs moved := by
  obtain ⟨front, current, rest, shape, points, behind, beyond⟩ := free
  have ended := ended_released jobs job
  have nodes : Shape (released jobs job) (front ++ current :: rest) := shape_setFlags shape job _
  have quiet : ∀ slot ∈ rest, flagsOf (released jobs job) slot &&& apeSocketJobActive = 0#32 :=
    fun slot member => ended.inactive (behind slot member)
  have zero : ∀ slot, jobs.count ≤ slot → flagsOf (released jobs job) slot = 0#32 := by
    intro slot high
    rcases ended slot with same | cleared
    · rw [same, beyond slot high]
    · rw [cleared, beyond slot high]
      rfl
  cases front with
  | nil =>
    have same : (released jobs job).head = (released jobs job).current := nodes.chain.1.trans points.symm
    refine ⟨released jobs job, (released jobs job).head, ?_, ⟨[], current, rest, nodes, points, quiet, zero⟩, ended⟩
    rw [apePoolHeadToCurrent, if_pos same]
  | cons head front =>
    obtain ⟨moved, first, turned, shape, flags, -, points, count⟩ := headToCurrent_shape nodes points
    refine ⟨moved, first, turned, ⟨front ++ [current], head, rest, ?_, points, ?_, ?_⟩, ?_⟩
    · rw [List.append_assoc]
      exact shape
    · rw [flags]
      exact quiet
    · rw [flags, count]
      exact zero
    · intro slot
      rw [flags]
      exact ended slot

end Ends

section Turns

variable {kernel : Kernel} {maxChunks : Nat} {world : World} {doing next : DoingJobs}

structure OnlyEnds (old new : World) : Prop where
  free : FreeBehind new.socket.jobs
  ended : Ended old.socket.jobs new.socket.jobs

def turnEnds (old : World) : JobsTurn → Prop
  | .again next => OnlyEnds old next.world
  | .done (.ok (next, _)) => OnlyEnds old next
  | .done (.error _) => True

theorem onlyEnds_same (free : FreeBehind world.socket.jobs) {other : World}
    (same : SameSlots other.socket.jobs world.socket.jobs) : OnlyEnds world other :=
  { free := same.freeBehind free, ended := fun slot => .inl (by rw [same.flags]) }

theorem onlyEnds_shutdownNow (free : FreeBehind world.socket.jobs) {other : World}
    (same : SameSlots other.socket.jobs world.socket.jobs) : OnlyEnds world (apeSocketShutdownNow other) := by
  obtain ⟨state, events, shut, -⟩ := shutdownNow_kept other
  apply onlyEnds_same free
  rw [shut]
  exact same

theorem finishJob_ends (free : FreeBehind world.socket.jobs) {other : World}
    (same : SameSlots other.socket.jobs world.socket.jobs) (njobsdone job : Nat) :
    turnEnds world (finishJob other njobsdone job) := by
  obtain ⟨moved, first, turned, behind, ended⟩ := freeBehind_finished (same.freeBehind free) job
  have turn : finishJob other njobsdone job =
      .again { world := { other with socket := { other.socket with jobs := moved } }, njobsdone := njobsdone + 1 } := by
    exact finishJob_ok turned
  rw [turn]
  refine { free := behind, ended := Ended.trans (fun slot => .inl ?_) ended }
  rw [same.flags]

theorem afterPackets_ends (free : FreeBehind world.socket.jobs) {other : World}
    (same : other.socket.jobs = world.socket.jobs) (njobsdone job : Nat) (plist : PoolList Packet) :
    turnEnds world (afterPackets maxChunks other njobsdone job plist) := by
  have slots : SameSlots other.socket.jobs world.socket.jobs := same ▸ SameSlots.refl _
  rw [afterPackets]
  split
  · trivial
  · split
    · exact finishJob_ends free ((sameSlots_setContent _ _ _).trans slots) njobsdone job
    · exact onlyEnds_same free slots

theorem jobTurn_ends (free : FreeBehind world.socket.jobs) (njobsdone : Nat) :
    turnEnds world (jobTurn maxChunks world njobsdone) := by
  have here : OnlyEnds world world := onlyEnds_same free (SameSlots.refl _)
  cases head : world.socket.jobs.head with
  | none =>
    simp only [jobTurn, head]
    exact here
  | some job =>
    simp only [jobTurn, head]
    by_cases idle : (!(world.socket.jobs.node job).active) = true
    · rw [if_pos idle]
      exact here
    · rw [if_neg idle]
      by_cases writev : (world.socket.jobs.node job).flags &&& ~~~(apePoolAllFlags ||| apeSocketJobActive) =
          apeSocketJobWritev
      · rw [if_pos writev]
        cases (world.socket.jobs.node job).content with
        | null => trivial
        | fd fd => trivial
        | data plist => exact here
      · rw [if_neg writev]
        by_cases sendfile : (world.socket.jobs.node job).flags &&& ~~~(apePoolAllFlags ||| apeSocketJobActive) =
            apeSocketJobSendfile
        · rw [if_pos sendfile]
          cases (world.socket.jobs.node job).content with
          | null => trivial
          | fd fd => exact here
          | data plist => trivial
        · rw [if_neg sendfile]
          by_cases shutdown : (world.socket.jobs.node job).flags &&& ~~~(apePoolAllFlags ||| apeSocketJobActive) =
              apeSocketJobShutdown
          · rw [if_pos shutdown]
            cases world.socket.state with
            | online => exact onlyEnds_same free (SameSlots.refl _)
            | progress | pending | offline | shutdown => exact here
          · rw [if_neg shutdown]
            exact finishJob_ends free (SameSlots.refl _) njobsdone job

theorem consumeTurn_ends (free : FreeBehind world.socket.jobs) (njobsdone job : Nat) (plist : PoolList Packet) (n : SizeT) :
    turnEnds world (consumeTurn maxChunks world njobsdone job plist n) := by
  rw [consumeTurn]
  split
  · trivial
  · dsimp only
    split
    · exact afterPackets_ends free rfl njobsdone job plist
    · split
      · exact afterPackets_ends free rfl njobsdone job _
      · split
        · trivial
        · split
          · refine afterPackets_ends free ?_ njobsdone job _
            rfl
          · exact onlyEnds_same free (SameSlots.refl _)

theorem rewriteTurn_ends (free : FreeBehind world.socket.jobs) (njobsdone job : Nat) (plist : PoolList Packet)
    (chunks : List (List Byte)) : turnEnds world (rewriteTurn kernel world njobsdone job plist chunks) := by
  rw [rewriteTurn]
  dsimp only
  split
  · exact onlyEnds_same free (sameSlots_setContent _ _ _)
  · exact onlyEnds_same free (SameSlots.refl _)
  · exact onlyEnds_shutdownNow free (sameSlots_setContent _ _ _)
  · exact onlyEnds_same free (SameSlots.refl _)

theorem sendfileTurn_ends (free : FreeBehind world.socket.jobs) (njobsdone job fd : Nat) :
    turnEnds world (sendfileTurn kernel world njobsdone job fd) := by
  rw [sendfileTurn]
  dsimp only
  split
  · exact onlyEnds_same free (SameSlots.refl _)
  · exact onlyEnds_same free (SameSlots.refl _)
  · exact finishJob_ends free (sameSlots_setContent _ _ _) njobsdone job

theorem doJobsTurn_ends (free : FreeBehind doing.world.socket.jobs) :
    turnEnds doing.world (doJobsTurn kernel maxChunks doing) := by
  rw [doJobsTurn]
  split
  · exact jobTurn_ends free _
  · exact rewriteTurn_ends free _ _ _ _
  · exact consumeTurn_ends free _ _ _ _
  · exact sendfileTurn_ends free _ _ _

theorem doJobs_visits (free : FreeBehind world.socket.jobs)
    (visits : Visits (doJobsTurn kernel maxChunks) { world } doing) : OnlyEnds world doing.world := by
  apply visits_invariant (fun doing => OnlyEnds world doing.world) ?_ (onlyEnds_same free (SameSlots.refl _)) visits
  intro state next only again
  have turn := @doJobsTurn_ends kernel maxChunks state only.free
  rw [again] at turn
  exact { free := turn.free, ended := only.ended.trans turn.ended }

theorem doJobs_onlyEnds (free : FreeBehind world.socket.jobs) {fuel : Nat} {last : World} {ret : Int}
    (returned : apeSocketDoJobs kernel maxChunks fuel world = some (.ok (last, ret))) : OnlyEnds world last := by
  have post := @loop_result _ _ (doJobsTurn kernel maxChunks) { world } (fun doing => OnlyEnds world doing.world)
    (fun result => ∀ last ret, result = .ok (last, ret) → OnlyEnds world last) ?_ fuel _
    (onlyEnds_same free (SameSlots.refl _)) returned
  · exact post last ret rfl
  · intro state only
    have turn := @doJobsTurn_ends kernel maxChunks state only.free
    cases outcome : doJobsTurn kernel maxChunks state with
    | again next =>
      rw [outcome] at turn
      exact .inl ⟨next, rfl, { free := turn.free, ended := only.ended.trans turn.ended }⟩
    | done result =>
      refine .inr ⟨result, rfl, ?_⟩
      rintro last ret rfl
      rw [outcome] at turn
      exact { free := turn.free, ended := only.ended.trans turn.ended }

end Turns

section Calls

variable {kernel : Kernel} {maxChunks fuel : Nat} {world next : World} {type : JobType}

/-- From one world to another one slot was taken, or none. -/
structure TakesOne (type : JobType) (old new : World) : Prop where
  free : FreeBehind new.socket.jobs
  taken : SameSlots new.socket.jobs old.socket.jobs ∨ Took type old.socket.jobs new.socket.jobs

theorem takesOne_none (free : FreeBehind world.socket.jobs) (same : SameSlots next.socket.jobs world.socket.jobs) :
    TakesOne type world next := { free := same.freeBehind free, taken := .inl same }

theorem Took.congr {old middle new : PoolList Job} (took : Took type old middle) (same : SameSlots new middle) :
    Took type old new := by
  obtain ⟨slot, free, active, kind, others⟩ := took
  refine ⟨slot, free, ?_, ?_, ?_⟩
  · rw [same.flags]
    exact active
  · rw [kindOf, same.flags]
    exact kind
  · intro other differ
    rw [kindOf, same.flags]
    exact others other differ

theorem shutdownNow_slots (world : World) : (apeSocketShutdownNow world).socket.jobs = world.socket.jobs := by
  obtain ⟨state, events, shut, -⟩ := shutdownNow_kept world
  rw [shut]

theorem queueData_takes (free : FreeBehind world.socket.jobs) {data : List Byte} {offset : SizeT}
    {dataType : DataAutorelease} (queued : apeSocketQueueData world data offset dataType = .ok next) :
    TakesOne .writev world next := by
  obtain ⟨jobs, slot, got, took, behind⟩ := getSlot_took free .writev
  simp only [apeSocketQueueData, show apeSocketJobGetSlot world.socket apeSocketJobWritev = _ from got] at queued
  split at queued
  · cases queued
  · split at queued
    · cases queued
    · rename_i list _
      have same : SameSlots next.socket.jobs jobs := by
        cases queued
        split
        · rw [shutdownNow_slots]
          exact sameSlots_setContent jobs slot _
        · exact sameSlots_setContent jobs slot _
      exact { free := same.freeBehind behind, taken := .inr (took.congr same) }

theorem queueData_map {data : List Byte} {offset : SizeT} {dataType : DataAutorelease} {value ret : Int}
    (mapped : (apeSocketQueueData world data offset dataType).map (fun next => (next, value)) = .ok (next, ret)) :
    apeSocketQueueData world data offset dataType = .ok next := by
  cases queued : apeSocketQueueData world data offset dataType with
  | error fault =>
    rw [queued] at mapped
    cases mapped
  | ok found =>
    rw [queued] at mapped
    cases mapped
    rfl

theorem writeReturn_slots (dataType : DataAutorelease) (world : World) (ioError : Bool) :
    (writeReturn dataType world ioError).1.socket.jobs = world.socket.jobs := by
  cases ioError with
  | false => rfl
  | true => exact shutdownNow_slots _

theorem TakesOne.congr {other : World} (takes : TakesOne type other next)
    (same : other.socket.jobs = world.socket.jobs) : TakesOne type world next :=
  { free := takes.free, taken := same ▸ takes.taken }

theorem writeTurn_takes (free : FreeBehind world.socket.jobs) {data : List Byte} {dataType : DataAutorelease}
    {writing : Writing} (same : writing.world.socket.jobs = world.socket.jobs) :
    (∃ after, writeTurn kernel data dataType writing = .again after ∧ after.world.socket.jobs = world.socket.jobs) ∨
      ∃ result, writeTurn kernel data dataType writing = .done result ∧
        ∀ next ret, result = .ok (next, ret) → TakesOne .writev world next := by
  have returned : ∀ (called : World) (ioError : Bool), called.socket.jobs = world.socket.jobs → ∀ next ret,
      Except.ok (writeReturn dataType called ioError) = (.ok (next, ret) : Except Fault (World × Int)) →
      TakesOne .writev world next := by
    intro called ioError kept next ret result
    apply takesOne_none free
    have jobs := writeReturn_slots dataType called ioError
    rw [Except.ok.inj result, kept] at jobs
    rw [jobs]
    exact SameSlots.refl _
  rw [writeTurn]
  split
  · dsimp only
    split
    · exact .inl ⟨_, rfl, same⟩
    · split
      · refine .inr ⟨_, rfl, ?_⟩
        intro next ret result
        refine TakesOne.congr (queueData_takes ?_ (queueData_map result)) same
        show FreeBehind writing.world.socket.jobs
        rw [same]
        exact free
      · exact .inr ⟨_, rfl, returned _ true same⟩
    · exact .inr ⟨_, rfl, returned _ true same⟩
    · exact .inr ⟨_, rfl, returned _ true same⟩
  · exact .inr ⟨_, rfl, returned _ false same⟩

theorem write_takes (free : FreeBehind world.socket.jobs) {data : List Byte} {dataType : DataAutorelease} {ret : Int}
    (returned : apeSocketWrite kernel data dataType fuel world = some (.ok (next, ret))) :
    TakesOne .writev world next := by
  rw [apeSocketWrite] at returned
  split at returned
  · cases returned
    exact takesOne_none free (SameSlots.refl _)
  · split at returned
    · cases returned
    · split at returned
      · exact queueData_takes free (queueData_map (Option.some.inj returned))
      · have post := @loop_result _ _ (writeTurn kernel data dataType) _
          (fun writing => writing.world.socket.jobs = world.socket.jobs)
          (fun result => ∀ next ret, result = .ok (next, ret) → TakesOne .writev world next)
          (fun writing same => ?_) fuel _ rfl returned
        · exact post next ret rfl
        · exact writeTurn_takes free same

theorem queueFile_takes (free : FreeBehind world.socket.jobs) {fd : Nat} {ret : Int}
    (queued : queueFile world fd = .ok (next, ret)) : TakesOne .sendfile world next := by
  obtain ⟨jobs, slot, got, took, behind⟩ :=
    @getSlot_took { world.socket with wouldBlock := true } free .sendfile
  simp only [queueFile, show apeSocketJobGetSlot { world.socket with wouldBlock := true } apeSocketJobSendfile = _ from got]
    at queued
  cases queued
  have same : SameSlots (jobs.setContent slot (.fd fd)) jobs := sameSlots_setContent jobs slot _
  exact { free := same.freeBehind behind, taken := .inr (took.congr same) }

theorem sendfile_takes (free : FreeBehind world.socket.jobs) {file : Option Nat} {ret : Int}
    (returned : apeSendfile kernel fuel file world = some (.ok (next, ret))) : TakesOne .sendfile world next := by
  have none : TakesOne .sendfile world world := takesOne_none free (SameSlots.refl _)
  unfold apeSendfile at returned
  split at returned
  · cases returned
    exact none
  · split at returned
    · cases returned
      exact none
    · split at returned
      · cases returned
      · split at returned
        · exact queueFile_takes free (Option.some.inj returned)
        · rename_i fd _ _ _ _
          have post := @loop_result _ _ (sendTurn kernel fd) world
            (fun called => called.socket.jobs = world.socket.jobs)
            (fun result => ∀ next ret, result = .ok (next, ret) → TakesOne .sendfile world next) ?_ fuel _ rfl returned
          · exact post next ret rfl
          · intro called same
            rw [sendTurn]
            split
            · exact .inl ⟨_, rfl, same⟩
            · refine .inr ⟨_, rfl, ?_⟩
              intro next ret queued
              refine TakesOne.congr (queueFile_takes ?_ queued) same
              show FreeBehind called.socket.jobs
              rw [same]
              exact free
            · refine .inr ⟨_, rfl, ?_⟩
              intro next ret result
              cases result
              apply takesOne_none free
              show SameSlots called.socket.jobs world.socket.jobs
              rw [same]
              exact SameSlots.refl _

theorem shutdown_takes (free : FreeBehind world.socket.jobs) (returned : apeSocketShutdown world = .ok next) :
    TakesOne .shutdown world next := by
  have none : ∀ other : World, other.socket.jobs = world.socket.jobs → TakesOne .shutdown world other :=
    fun other same => takesOne_none free (same ▸ SameSlots.refl _)
  rw [apeSocketShutdown] at returned
  split at returned
  · cases returned
    exact none _ rfl
  · cases returned
    exact none _ rfl
  · cases returned
    exact none _ rfl
  · cases returned
    exact none _ rfl
  · split at returned
    · cases returned
    · split at returned
      · obtain ⟨jobs, slot, got, took, behind⟩ := @getSlot_took world.socket free .shutdown
        simp only [show apeSocketJobGetSlot world.socket apeSocketJobShutdown = _ from got] at returned
        cases returned
        exact { free := behind, taken := .inr took }
      · cases returned
        exact none _ rfl

end Calls

end ZapeProof
