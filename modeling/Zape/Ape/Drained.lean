import Zape.Ape.Duties
import Zape.Ape.Releasing
import Mathlib.Data.List.TakeWhile

/-! Whether the event loop calls `on_drain` when no job is left. -/
namespace ZapeProof

open Machine ZapeModel

def isActive (jobs : PoolList Job) (slot : Nat) : Bool := (jobs.node slot).active

/-- The slots of the active jobs, in the order of the list. -/
def activeSlots (jobs : PoolList Job) : List Nat := (addresses jobs).filter (isActive jobs)

/-- Those that are active at the head of the list, up to the first one that is not. -/
def leadingSlots (jobs : PoolList Job) : List Nat := (addresses jobs).takeWhile (isActive jobs)

/-- A system call that ends a call of `ape_socket_do_jobs`. -/
def halts : SocketEvent → Bool
  | .writev _ .again | .writev _ .failed | .sendfile _ .again => true
  | _ => false

/-- A write that has packets, a file, or bits of more than one kind, which the code takes for none. -/
def Workable (flags : BitVec 32) (content : Job) : Prop :=
  kindBits flags = apeSocketJobWritev ∧ (∃ plist pending, content = .data plist ∧ Packets plist pending ∧ pending ≠ []) ∨
    kindBits flags = apeSocketJobSendfile ∧ (∃ fd, content = .fd fd) ∨
    kindBits flags ≠ apeSocketJobWritev ∧ kindBits flags ≠ apeSocketJobSendfile ∧ kindBits flags ≠ apeSocketJobShutdown

/-- A list of jobs without a shutdown: the current one is the last of those that were ever taken. -/
structure Agenda (jobs : PoolList Job) (used unused : List Nat) : Prop where
  shape : Shape jobs (used ++ unused)
  taken : used ≠ []
  current : jobs.current = used.getLast?
  work : ∀ slot ∈ used, isActive jobs slot = true → Workable (flagsOf jobs slot) (contents jobs slot)
  unused : ∀ slot ∈ unused, isActive jobs slot = false

/-- In the middle of the jobs: some are left, none of the others was touched, and some have ended. -/
structure Shift (start jobs : PoolList Job) (left others ended unused : List Nat) : Prop where
  shape : Shape jobs (left ++ (others ++ ended) ++ unused)
  taken : left ++ (others ++ ended) ≠ []
  current : jobs.current = (left ++ (others ++ ended)).getLast?
  active : ∀ slot ∈ left, isActive jobs slot = true
  work : ∀ slot ∈ left, Workable (flagsOf jobs slot) (contents jobs slot)
  same : ∀ slot ∈ others, isActive jobs slot = isActive start slot
  first : ∀ slot, others.head? = some slot → isActive jobs slot = false
  ended : ∀ slot ∈ ended, isActive jobs slot = false
  unused : ∀ slot ∈ unused, isActive jobs slot = false

section Lists

variable {start jobs : PoolList Job} {slot : Nat} {left others ended unused : List Nat}

theorem activeSlots_shape {nodes : List Nat} (shape : Shape jobs nodes) : activeSlots jobs = nodes.filter (isActive jobs) := by
  rw [activeSlots, shape_addresses shape]

theorem isActive_flags {other : PoolList Job} (same : flagsOf other slot = flagsOf jobs slot) :
    isActive other slot = isActive jobs slot := by
  simp only [isActive, PoolNode.active]
  exact congrArg (fun flags => flags &&& apeSocketJobActive != 0#32) same

theorem shift_start {used : List Nat} (agenda : Agenda jobs used unused) :
    Shift jobs jobs (used.takeWhile (isActive jobs)) (used.dropWhile (isActive jobs)) [] unused where
  shape := by
    rw [List.append_nil, List.takeWhile_append_dropWhile]
    exact agenda.shape
  taken := by
    rw [List.append_nil, List.takeWhile_append_dropWhile]
    exact agenda.taken
  current := by
    rw [List.append_nil, List.takeWhile_append_dropWhile]
    exact agenda.current
  active slot member := List.mem_takeWhile_imp member
  work slot member := agenda.work slot (List.takeWhile_subset _ member) (List.mem_takeWhile_imp member)
  same _ _ := rfl
  first slot head := by
    have := List.head?_dropWhile_not (isActive jobs) used
    rw [head] at this
    simpa using this
  ended := by simp
  unused := agenda.unused

/-- A job ends: its slot comes behind all that were taken. -/
theorem shift_finish (shift : Shift start jobs (slot :: left) others ended unused) (content : Job) :
    ∃ moved first, apePoolHeadToCurrent (released (jobs.setContent slot content) slot) = .ok (moved, first) ∧
      Shift start moved left others (ended ++ [slot]) unused := by
  let done := released (jobs.setContent slot content) slot
  have alike : AlikeOff slot jobs done := (alike_setContent jobs slot content).trans (alike_setFlags _ slot _)
  have whole : slot :: left ++ (others ++ ended) ++ unused = slot :: (left ++ (others ++ ended) ++ unused) := by simp
  have shape := shift.shape
  rw [whole] at shape
  obtain ⟨moved, first, turned, nodes, flags, held, now⟩ := headToCurrent_last (alike.shape shape) shift.current
  have outside := (List.nodup_cons.mp shape.nodup).1
  have kept : ∀ other ∈ left ++ (others ++ ended) ++ unused,
      flagsOf moved other = flagsOf jobs other ∧ contents moved other = contents jobs other := by
    intro other member
    have differ : other ≠ slot := ne_of_mem_of_not_mem member outside
    rw [flags, held]
    exact ⟨alike.flags other differ, alike.contents other differ⟩
  have quiet : isActive moved slot = false := by
    rw [isActive_flags (congrFun flags slot)]
    exact (inactive_iff done slot).mpr (by
      rw [show flagsOf done = _ from flagsOf_setFlags _ slot _, Function.update_self]
      exact released_inactive _)
  refine ⟨moved, first, turned,
    { shape := ?_, taken := ?_, current := ?_, active := ?_, work := ?_, same := ?_, first := ?_, ended := ?_, unused := ?_ }⟩
  · rw [← List.append_assoc others, ← List.append_assoc left, List.append_assoc _ [slot]]
    exact nodes
  · simp
  · rw [now, ← List.append_assoc others, ← List.append_assoc left, List.getLast?_append]
    rfl
  · intro other member
    rw [isActive_flags (kept other (by simp [member])).1]
    exact shift.active other (List.mem_cons_of_mem slot member)
  · intro other member
    rw [(kept other (by simp [member])).1, (kept other (by simp [member])).2]
    exact shift.work other (List.mem_cons_of_mem slot member)
  · intro other member
    rw [isActive_flags (kept other (by simp [member])).1]
    exact shift.same other member
  · intro other head
    rw [isActive_flags (kept other (by simp [List.mem_of_mem_head? head])).1]
    exact shift.first other head
  · intro other member
    rcases List.mem_append.mp member with before | last
    · rw [isActive_flags (kept other (by simp [before])).1]
      exact shift.ended other before
    · rw [List.mem_singleton.mp last]
      exact quiet
  · intro other member
    rw [isActive_flags (kept other (by simp [member])).1]
    exact shift.unused other member

theorem Shift.head (shift : Shift start jobs left others ended unused) :
    (∃ slot behind, left = slot :: behind ∧ jobs.head = some slot) ∨
      left = [] ∧ ∃ slot, jobs.head = some slot ∧ isActive jobs slot = false := by
  cases left with
  | cons slot behind => exact .inl ⟨slot, behind, rfl, shift.shape.chain.1⟩
  | nil =>
    refine .inr ⟨rfl, ?_⟩
    cases others with
    | cons slot others => exact ⟨slot, shift.shape.chain.1, shift.first slot rfl⟩
    | nil =>
      cases ended with
      | cons slot ended => exact ⟨slot, shift.shape.chain.1, shift.ended slot (by simp)⟩
      | nil => exact absurd rfl shift.taken

theorem Shift.activeSlots (shift : Shift start jobs left others ended unused) :
    activeSlots jobs = left ++ others.filter (isActive start) := by
  have all : left.filter (isActive jobs) = left := List.filter_eq_self.mpr shift.active
  have same : others.filter (isActive jobs) = others.filter (isActive start) := List.filter_congr shift.same
  have none : ∀ slots : List Nat, (∀ slot ∈ slots, isActive jobs slot = false) → slots.filter (isActive jobs) = [] := by
    intro slots inactive
    rw [List.filter_eq_nil_iff]
    intro slot member
    simp [inactive slot member]
  rw [activeSlots_shape shift.shape, List.filter_append, List.filter_append, List.filter_append, all, same,
    none ended shift.ended, none unused shift.unused, List.append_nil, List.append_nil]

end Lists

/-- What the label says of the first job that is left. -/
def AtFirst (maxChunks : Nat) (left : List Nat) : JobsLabel → Prop
  | .job => True
  | .rewrite job plist chunks => (∃ behind, left = job :: behind) ∧
      ∃ pending, Packets plist pending ∧ pending ≠ [] ∧ chunks = pending.take maxChunks
  | .consume job plist n => (∃ behind, left = job :: behind) ∧ ∃ pending taken, Packets plist pending ∧
      taken ≤ pending.flatten.length ∧ 0 < taken ∧ taken < 2 ^ 63 ∧ n = BitVec.ofNat 64 taken
  | .sendfile job _ => ∃ behind, left = job :: behind

/-- What holds whenever a turn of `ape_socket_do_jobs` starts, `lead` jobs being active at the head of the list before. -/
structure Toiling (maxChunks : Nat) (start : World) (lead : Nat) (others unused : List Nat) (doing : DoingJobs)
    (left ended : List Nat) : Prop where
  shift : Shift start.socket.jobs doing.world.socket.jobs left others ended unused
  count : doing.njobsdone + left.length = lead
  log : ∃ events, doing.world.out = start.out ++ events ∧ ∀ event ∈ events, halts event = false
  label : AtFirst maxChunks left doing.label

def Toils (maxChunks : Nat) (start : World) (lead : Nat) (others unused : List Nat) (doing : DoingJobs) : Prop :=
  ∃ left ended, Toiling maxChunks start lead others unused doing left ended

/-- A system call stopped the jobs and the first one is still active, or all that were active at the head have ended. -/
def Serviced (start : World) (lead : Nat) (others : List Nat) (result : Except Fault (World × Int)) : Prop :=
  ∃ after ret events, result = .ok (after, ret) ∧ after.out = start.out ++ events ∧
    ((∃ event ∈ events, halts event = true) ∧ ret ≤ 0 ∧ activeSlots after.socket.jobs ≠ [] ∨
      (∀ event ∈ events, halts event = false) ∧ ret = lead ∧
        activeSlots after.socket.jobs = others.filter (isActive start.socket.jobs))

section Turns

variable {kernel : Kernel} {maxChunks : Nat} {start world : World} {lead job njobsdone : Nat}
  {others unused left ended : List Nat} {plist : PoolList Packet} {label : JobsLabel}

/-- One event more in the log. -/
theorem log_event {events : List SocketEvent} (quiet : ∀ event ∈ events, halts event = false) {event : SocketEvent}
    (goes_on : halts event = false) : ∀ other ∈ events ++ [event], halts other = false := by
  intro other member
  rcases List.mem_append.mp member with before | last
  · exact quiet other before
  · rw [List.mem_singleton.mp last]
    exact goes_on

theorem setContent_own {α : Type} (list : PoolList α) (address : Nat) :
    list.setContent address (contents list address) = list := by
  simp only [PoolList.setContent, PoolList.modify, contents]
  rw [show ({ list.node address with content := (list.node address).content } : PoolNode α) = list.node address from rfl,
    Function.update_eq_self]

theorem finish_toils (shift : Shift start.socket.jobs world.socket.jobs (job :: left) others ended unused)
    (count : njobsdone + (left.length + 1) = lead)
    (log : ∃ events, world.out = start.out ++ events ∧ ∀ event ∈ events, halts event = false) (content : Job) :
    ∃ next, finishJob { world with socket := { world.socket with jobs := world.socket.jobs.setContent job content } }
        njobsdone job = .again next ∧ Toils maxChunks start lead others unused next := by
  obtain ⟨moved, first, turned, still⟩ := shift_finish shift content
  refine ⟨_, finishJob_ok turned, left, ended ++ [job], { shift := still, count := ?_, log, label := trivial }⟩
  show njobsdone + 1 + left.length = lead
  omega

/-- The first job is still active when the jobs are stopped. -/
theorem halt_serviced (shift : Shift start.socket.jobs world.socket.jobs (job :: left) others ended unused)
    {events more : List SocketEvent} (log : world.out = start.out ++ events) {event : SocketEvent}
    (halting : halts event = true) {after : World} {content : Job}
    (jobs : after.socket.jobs = world.socket.jobs.setContent job content)
    (out : after.out = world.out ++ (event :: more)) {ret : Int} (none : ret ≤ 0) :
    Serviced start lead others (.ok (after, ret)) := by
  refine ⟨after, ret, events ++ event :: more, rfl, by rw [out, log, List.append_assoc],
    .inl ⟨⟨event, by simp, halting⟩, none, ?_⟩⟩
  have active : isActive after.socket.jobs job = true := by
    rw [jobs, isActive_flags (congrFun (flagsOf_setContent _ job content) job)]
    exact shift.active job (by simp)
  have shape := shape_setContent shift.shape job content
  rw [← jobs] at shape
  rw [activeSlots_shape shape]
  exact List.ne_nil_of_mem (List.mem_filter.mpr ⟨by simp, active⟩)

theorem job_toils (toils : Toils maxChunks start lead others unused { world, njobsdone }) :
    (∃ next, jobTurn maxChunks world njobsdone = .again next ∧ Toils maxChunks start lead others unused next) ∨
      ∃ result, jobTurn maxChunks world njobsdone = .done result ∧ Serviced start lead others result := by
  obtain ⟨left, ended, toiling⟩ := toils
  have shift : Shift start.socket.jobs world.socket.jobs left others ended unused := toiling.shift
  rcases shift.head with ⟨job, behind, rfl, head⟩ | ⟨rfl, slot, head, inactive⟩
  · have active : (world.socket.jobs.node job).active = true := shift.active job (by simp)
    have file_write : apeSocketJobSendfile ≠ apeSocketJobWritev := by decide
    rcases shift.work job (by simp) with
      ⟨kind, plist, pending, content, packets, some_pending⟩ | ⟨kind, fd, content⟩ | ⟨write, file, shutdown⟩
    · have type : (world.socket.jobs.node job).flags &&& ~~~(apePoolAllFlags ||| apeSocketJobActive) =
        apeSocketJobWritev := kind
      have held : (world.socket.jobs.node job).content = .data plist := content
      refine .inl ⟨{ world, njobsdone, label := .rewrite job plist (pending.take maxChunks) }, ?_, job :: behind, ended,
        { shift, count := toiling.count, log := toiling.log,
          label := ⟨⟨behind, rfl⟩, pending, packets, some_pending, rfl⟩ }⟩
      simp only [jobTurn, head, active, type, held, Bool.not_true, Bool.false_eq_true, ite_false, ite_true]
      rw [gather_packets packets]
    · have type : (world.socket.jobs.node job).flags &&& ~~~(apePoolAllFlags ||| apeSocketJobActive) =
        apeSocketJobSendfile := kind
      have held : (world.socket.jobs.node job).content = .fd fd := content
      refine .inl ⟨{ world, njobsdone, label := .sendfile job fd }, ?_, job :: behind, ended,
        { shift, count := toiling.count, log := toiling.log, label := ⟨behind, rfl⟩ }⟩
      simp only [jobTurn, head, active, type, held, Bool.not_true, Bool.false_eq_true, ite_false, ite_true, file_write]
    · have ends : jobTurn maxChunks world njobsdone = finishJob world njobsdone job := by
        have no_write : ¬ (world.socket.jobs.node job).flags &&& ~~~(apePoolAllFlags ||| apeSocketJobActive) =
          apeSocketJobWritev := write
        have no_file : ¬ (world.socket.jobs.node job).flags &&& ~~~(apePoolAllFlags ||| apeSocketJobActive) =
          apeSocketJobSendfile := file
        have no_shutdown : ¬ (world.socket.jobs.node job).flags &&& ~~~(apePoolAllFlags ||| apeSocketJobActive) =
          apeSocketJobShutdown := shutdown
        simp only [jobTurn, head, active, Bool.not_true, Bool.false_eq_true, ite_false, no_write, no_file, no_shutdown]
      have finished := @finish_toils maxChunks start world lead job njobsdone others unused behind ended shift toiling.count
        toiling.log (contents world.socket.jobs job)
      rw [setContent_own] at finished
      rw [ends]
      exact .inl finished
  · obtain ⟨events, log, quiet⟩ := toiling.log
    refine .inr ⟨_, jobTurn_idle head inactive, world, njobsdone, events, rfl, log, .inr ⟨quiet, ?_, ?_⟩⟩
    · have count : njobsdone + 0 = lead := toiling.count
      omega
    · exact shift.activeSlots

theorem rewrite_toils (some_chunks : 0 < maxChunks) {chunks : List (List Byte)}
    (toils : Toils maxChunks start lead others unused { world, njobsdone, label := .rewrite job plist chunks }) :
    (∃ next, rewriteTurn kernel world njobsdone job plist chunks = .again next ∧
        Toils maxChunks start lead others unused next) ∨
      ∃ result, rewriteTurn kernel world njobsdone job plist chunks = .done result ∧ Serviced start lead others result := by
  obtain ⟨left, ended, toiling⟩ := toils
  obtain ⟨⟨behind, rfl⟩, pending, packets, some_pending, rfl⟩ := toiling.label
  obtain ⟨events, log, quiet⟩ := toiling.log
  have shift : Shift start.socket.jobs world.socket.jobs (job :: behind) others ended unused := toiling.shift
  let chunks := pending.take maxChunks
  let called (reply : Reply) : World := { world with calls := world.calls + 1 }.emit [.writev chunks reply]
  have logged : ∀ reply, (called reply).out = start.out ++ (events ++ [.writev chunks reply]) := by
    intro reply
    rw [← List.append_assoc, ← log]
    rfl
  cases answer : kernel.reply world.calls chunks.flatten.length with
  | again =>
    have turn : rewriteTurn kernel world njobsdone job plist chunks =
        .done (.ok ({ storeList (called .again) job plist with
          socket := { (storeList (called .again) job plist).socket with wouldBlock := true } }, 0)) := by
      simp only [rewriteTurn, answer, called]
    exact .inr ⟨_, turn, halt_serviced shift log rfl rfl rfl (Int.le_refl 0)⟩
  | failed =>
    have turn : rewriteTurn kernel world njobsdone job plist chunks =
        .done (.ok (apeSocketShutdownNow (storeList (called .failed) job plist), -1)) := by
      simp only [rewriteTurn, answer, called]
    obtain ⟨state, more, shut, -⟩ := shutdownNow_kept (storeList (called .failed) job plist)
    rw [shut] at turn
    refine .inr ⟨_, turn, @halt_serviced start world lead job others unused behind ended shift events more log
      (.writev chunks .failed) rfl _ (.data plist) rfl ?_ (-1) (by decide)⟩
    exact List.append_assoc _ _ _
  | interrupted =>
    have turn : rewriteTurn kernel world njobsdone job plist chunks =
        .again { world := called .interrupted, njobsdone, label := .rewrite job plist chunks } := by
      simp only [rewriteTurn, answer, called]
    exact .inl ⟨_, turn, job :: behind, ended,
      { shift, count := toiling.count, log := ⟨_, logged _, log_event quiet rfl⟩, label := toiling.label }⟩
  | accepted count =>
    obtain ⟨inside, short, positive⟩ := kernel.honest _ _ _ answer
    have some_bytes := positive (packets_offered packets some_pending some_chunks)
    have fewer : chunks.flatten.length ≤ pending.flatten.length := by
      rw [@flatten_split maxChunks pending, List.length_append]
      exact Nat.le_add_right _ _
    let next : World :=
      { called (.accepted count) with
        socket := { world.socket with
          currentBufferMemoryBytes := world.socket.currentBufferMemoryBytes - BitVec.ofNat 64 count }
        totalMemoryBuffered := world.totalMemoryBuffered - BitVec.ofNat 64 count }
    have turn : rewriteTurn kernel world njobsdone job plist chunks =
        .again { world := next, njobsdone, label := .consume job plist (BitVec.ofNat 64 count) } := by
      simp only [rewriteTurn, answer]
      rfl
    exact .inl ⟨_, turn, job :: behind, ended,
      { shift, count := toiling.count, log := ⟨_, logged _, log_event quiet rfl⟩,
        label := ⟨⟨behind, rfl⟩, pending, count, packets, by omega, some_bytes, short, rfl⟩ }⟩

theorem consume_toils {n : SizeT}
    (toils : Toils maxChunks start lead others unused { world, njobsdone, label := .consume job plist n }) :
    ∃ next, consumeTurn maxChunks world njobsdone job plist n = .again next ∧
      Toils maxChunks start lead others unused next := by
  obtain ⟨left, ended, toiling⟩ := toils
  obtain ⟨⟨behind, rfl⟩, pending, taken, packets, inside, positive, small, rfl⟩ := toiling.label
  obtain ⟨events, log, quiet⟩ := toiling.log
  have shift : Shift start.socket.jobs world.socket.jobs (job :: behind) others ended unused := toiling.shift
  obtain ⟨list, more, rest, freed, packed, kept, frees, turned⟩ :=
    @consume_packets maxChunks plist pending taken packets inside positive small world njobsdone job
  have logged : ∃ events, (world.emit freed).out = start.out ++ events ∧ ∀ event ∈ events, halts event = false := by
    refine ⟨events ++ freed, ?_, ?_⟩
    · rw [← List.append_assoc, ← log]
      rfl
    · intro event member
      rcases List.mem_append.mp member with before | last
      · exact quiet event before
      · obtain ⟨pointer, rfl⟩ := frees event last
        rfl
  rcases turned with ⟨-, turn⟩ | ⟨some_rest, fits, turn⟩
  · rcases @afterPackets_cases maxChunks list more packed (world.emit freed) njobsdone job with
      ⟨-, after⟩ | ⟨some_more, after⟩
    · obtain ⟨next, finished, toils⟩ := @finish_toils maxChunks start (world.emit freed) lead job njobsdone others unused
        behind ended shift toiling.count logged (.data list)
      exact ⟨next, (turn.trans after).trans finished, toils⟩
    · exact ⟨_, turn.trans after, job :: behind, ended,
        { shift, count := toiling.count, log := logged, label := ⟨⟨behind, rfl⟩, more, packed, some_more, rfl⟩ }⟩
  · exact ⟨_, turn, job :: behind, ended,
      { shift, count := toiling.count, log := logged,
        label := ⟨⟨behind, rfl⟩, more, rest, packed, kept.inside, some_rest, fits, rfl⟩ }⟩

theorem sendfile_toils {fd : Nat}
    (toils : Toils maxChunks start lead others unused { world, njobsdone, label := .sendfile job fd }) :
    (∃ next, sendfileTurn kernel world njobsdone job fd = .again next ∧ Toils maxChunks start lead others unused next) ∨
      ∃ result, sendfileTurn kernel world njobsdone job fd = .done result ∧ Serviced start lead others result := by
  obtain ⟨left, ended, toiling⟩ := toils
  obtain ⟨behind, rfl⟩ := toiling.label
  obtain ⟨events, log, quiet⟩ := toiling.log
  have shift : Shift start.socket.jobs world.socket.jobs (job :: behind) others ended unused := toiling.shift
  let called (reply : SendfileReply) : World := { world with calls := world.calls + 1 }.emit [.sendfile fd reply]
  have logged : ∀ reply, (called reply).out = start.out ++ (events ++ [.sendfile fd reply]) := by
    intro reply
    rw [← List.append_assoc, ← log]
    rfl
  cases answer : kernel.sendfile world.calls with
  | sent =>
    have turn : sendfileTurn kernel world njobsdone job fd =
        .again { world := called .sent, njobsdone, label := .sendfile job fd } := by
      simp only [sendfileTurn, answer, called]
    exact .inl ⟨_, turn, job :: behind, ended,
      { shift, count := toiling.count, log := ⟨_, logged _, log_event quiet rfl⟩, label := ⟨behind, rfl⟩ }⟩
  | again =>
    have turn : sendfileTurn kernel world njobsdone job fd =
        .done (.ok ({ called .again with socket := { (called .again).socket with wouldBlock := true } }, 0)) := by
      simp only [sendfileTurn, answer, called]
    refine .inr ⟨_, turn, @halt_serviced start world lead job others unused behind ended shift events [] log
      (.sendfile fd .again) rfl _ (contents world.socket.jobs job) ?_ rfl 0 (Int.le_refl 0)⟩
    exact (setContent_own world.socket.jobs job).symm
  | ended =>
    let closed := (called .ended).emit [.closeFile fd]
    have turn : sendfileTurn kernel world njobsdone job fd =
        finishJob { closed with socket := { closed.socket with jobs := closed.socket.jobs.setContent job .null } }
          njobsdone job := by
      simp only [sendfileTurn, answer, called, closed]
    have still : ∃ events, closed.out = start.out ++ events ∧ ∀ event ∈ events, halts event = false := by
      refine ⟨events ++ [.sendfile fd .ended] ++ [.closeFile fd], ?_, log_event (log_event quiet rfl) rfl⟩
      rw [← List.append_assoc, ← logged]
      rfl
    obtain ⟨next, finished, toils⟩ := @finish_toils maxChunks start closed lead job njobsdone others unused behind ended
      shift toiling.count still .null
    exact .inl ⟨next, turn.trans finished, toils⟩

theorem turn_toils (some_chunks : 0 < maxChunks) {doing : DoingJobs} (toils : Toils maxChunks start lead others unused doing) :
    (∃ next, doJobsTurn kernel maxChunks doing = .again next ∧ Toils maxChunks start lead others unused next) ∨
      ∃ result, doJobsTurn kernel maxChunks doing = .done result ∧ Serviced start lead others result := by
  rcases doing with ⟨world, njobsdone, label⟩
  cases label with
  | job => exact job_toils toils
  | rewrite job plist chunks => exact rewrite_toils some_chunks toils
  | consume job plist n => exact .inl (consume_toils toils)
  | sendfile job fd => exact sendfile_toils toils

end Turns

section Drain

variable {kernel : Kernel} {maxChunks fuel : Nat} {jobs : PoolList Job} {used unused : List Nat}

theorem agenda_leading (agenda : Agenda jobs used unused) : leadingSlots jobs = used.takeWhile (isActive jobs) := by
  rw [leadingSlots, shape_addresses agenda.shape, List.takeWhile_append]
  split
  · rename_i all
    have none : unused.takeWhile (isActive jobs) = [] := by
      cases unused with
      | nil => rfl
      | cons slot unused => exact List.takeWhile_cons_of_neg (by simp [agenda.unused slot (by simp)])
    rw [none, List.append_nil, (List.takeWhile_sublist _).eq_of_length all]
  · rfl

theorem agenda_active (agenda : Agenda jobs used unused) :
    activeSlots jobs = leadingSlots jobs ++ (used.dropWhile (isActive jobs)).filter (isActive jobs) := by
  rw [agenda_leading agenda]
  exact (shift_start agenda).activeSlots

theorem doJobs_serviced (some_chunks : 0 < maxChunks) {world : World} (agenda : Agenda world.socket.jobs used unused)
    {result : Except Fault (World × Int)} (returned : apeSocketDoJobs kernel maxChunks fuel world = some result) :
    Serviced world (leadingSlots world.socket.jobs).length (used.dropWhile (isActive world.socket.jobs)) result := by
  have starts : Toils maxChunks world (leadingSlots world.socket.jobs).length
      (used.dropWhile (isActive world.socket.jobs)) unused { world } :=
    ⟨_, [], { shift := shift_start agenda, count := by rw [agenda_leading agenda, Nat.zero_add],
              log := ⟨[], (List.append_nil _).symm, by simp⟩, label := trivial }⟩
  exact loop_result (Toils maxChunks world (leadingSlots world.socket.jobs).length
    (used.dropWhile (isActive world.socket.jobs)) unused) _ (fun _ => turn_toils some_chunks) starts returned

/-- `on_drain` is called between the two exactly if a job was active before and none is afterwards. -/
def DrainFits (before new : Connection) (after : World) : Prop :=
  .onDrain ∈ new.log.drop before.log.length ↔
    activeSlots before.world.socket.jobs ≠ [] ∧ activeSlots after.socket.jobs = []

instance (before new : Connection) (after : World) : Decidable (DrainFits before new after) := instDecidableIff

/-- The event loop takes the number of jobs that were done for the answer to whether all were. -/
theorem drain_log {connection new : Connection} (online : connection.state = .online)
    (set : connection.callbacks.onDrain = true) {onDrain : List ConnectionCall}
    (done : connection.doJobs kernel maxChunks fuel onDrain = .ok new) :
    ∃ after ret, apeSocketDoJobs kernel maxChunks fuel connection.world = some (.ok (after, ret)) ∧
      (.onDrain ∈ new.log.drop connection.log.length ↔ ret = 1) := by
  obtain ⟨after, ret, now, ran, rest⟩ := doJobs_cases done
  obtain ⟨⟨events, log, asked⟩, -, callbacks, -⟩ := asks_follow connection now (doJobs_flushed online ran).state
  refine ⟨after, ret, ran, ?_⟩
  split at rest
  · rename_i one
    rw [callbacks, set, Connection.callback, if_pos rfl] at rest
    obtain ⟨more, grown⟩ := (performAll_asks _ new onDrain rest).grows.log
    refine iff_of_true ?_ one
    rw [grown]
    show ConnectionEvent.onDrain ∈ ((connection.follow now after).log ++ [ConnectionEvent.onDrain] ++ more).drop _
    rw [log, List.append_assoc, List.append_assoc, List.drop_left]
    simp
  · rename_i other
    cases rest
    refine iff_of_false ?_ other
    rw [log, List.drop_left]
    intro member
    cases asked _ member

theorem drain_called_iff (kernel : Kernel) {maxChunks : Nat} (some_chunks : 0 < maxChunks) (fuel : Nat)
    (connection : Connection) (online : connection.state = .online) (set : connection.callbacks.onDrain = true)
    (used unused : List Nat) (agenda : Agenda connection.world.socket.jobs used unused) (onDrain : List ConnectionCall)
    (new : Connection) (done : connection.doJobs kernel maxChunks fuel onDrain = .ok new) :
    ∃ after ret events, apeSocketDoJobs kernel maxChunks fuel connection.world = some (.ok (after, ret)) ∧
      after.out = connection.world.out ++ events ∧
      (DrainFits connection new after ↔
        (∃ event ∈ events, halts event = true) ∨ leadingSlots connection.world.socket.jobs = [] ∨
          ((leadingSlots connection.world.socket.jobs).length = 1 ↔
            activeSlots connection.world.socket.jobs = leadingSlots connection.world.socket.jobs)) := by
  obtain ⟨after, ret, ran, drained⟩ := drain_log online set done
  obtain ⟨_, _, events, same, log, outcome⟩ := doJobs_serviced some_chunks agenda ran
  cases same
  refine ⟨after, ret, events, ran, log, ?_⟩
  have before := agenda_active agenda
  rw [DrainFits, drained]
  rcases outcome with ⟨halted, none, left⟩ | ⟨quiet, rfl, left⟩
  · refine iff_of_true (iff_of_false (by omega) fun empty => left empty.2) (.inl halted)
  · have unhalted : ¬ ∃ event ∈ events, halts event = true := by
      rintro ⟨event, member, halting⟩
      cases (quiet event member).symm.trans halting
    rw [left, or_iff_right unhalted, before, List.append_right_eq_self]
    rcases List.eq_nil_or_concat (leadingSlots connection.world.socket.jobs) with empty | ⟨front, last, some_leading⟩
    · simp [empty]
    · simp [some_leading]

end Drain

/-- Two bytes would block and are queued, and a file behind them. -/
def dataAndFile : List ConnectionCall := [.write twoBytes .static, .sendfile (some 3)]

theorem two_jobs_without_drain :
    ∃ queued after new ret, ({} : Connection).performAll hesitant 1024 8 dataAndFile = .ok queued ∧
      queued.state = .online ∧ activeSlots queued.world.socket.jobs = [0, 1] ∧
      apeSocketDoJobs hesitant 1024 8 queued.world = some (.ok (after, ret)) ∧
      queued.doJobs hesitant 1024 8 [] = .ok new ∧ ¬ DrainFits queued new after :=
  ⟨_, _, _, _, rfl, rfl, by decide, rfl, rfl, by decide⟩

/-- A file that was queued on a new socket. -/
def fileJob : PoolList Job := (takeSlot (apeInitPoolList 2) 0 apeSocketJobSendfile).setContent 0 (.fd 3)

theorem agenda_fileJob : Agenda fileJob [0] [1] where
  shape := shape_setContent (takeSlot_shape _ (shape_init (by decide)) 0) 0 (.fd 3)
  taken := by simp
  current := rfl
  work := by
    intro slot member _
    cases List.mem_singleton.mp member
    exact .inr (.inl ⟨by decide, 3, rfl⟩)
  unused := by
    intro slot member
    cases List.mem_singleton.mp member
    decide

theorem fileJob_drained :
    ∃ after new, ({ world := { socket := { jobs := fileJob } } } : Connection).doJobs hesitant 1024 8 [] = .ok new ∧
      DrainFits { world := { socket := { jobs := fileJob } } } new after ∧ activeSlots after.socket.jobs = [] := by
  obtain ⟨new, done⟩ : ∃ new, ({ world := { socket := { jobs := fileJob } } } : Connection).doJobs hesitant 1024 8 [] =
      .ok new := ⟨_, rfl⟩
  obtain ⟨after, ret, events, ran, -, fits⟩ := drain_called_iff hesitant (by decide : 0 < 1024) 8 _ rfl rfl [0] [1]
    agenda_fileJob [] new done
  refine ⟨after, new, done, fits.mpr (.inr (.inr (by decide))), ?_⟩
  cases ran
  decide

end ZapeProof
