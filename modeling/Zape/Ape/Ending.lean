import Zape.Ape.Closing

/-! What was queued is sent before the socket is shut down, and what is queued later stays where it is. -/
namespace ZapeProof

open Machine ZapeModel

/-- A shutdown waits in the slot behind the head. -/
def Closing (jobs : PoolList Job) : Prop :=
  ∃ second front current behind, Shape jobs (0 :: (front ++ current :: behind)) ∧
    (front ++ [current]).head? = some second ∧ jobs.current = some current ∧
    flagsOf jobs second &&& apeSocketJobActive ≠ 0#32 ∧ kindOf jobs second = apeSocketJobShutdown

def Logged (past out : List SocketEvent) : Prop := ∃ events, out = past ++ events ∧ Graceful past events

/-- A shutdown was asked for, and there are data in front of it. -/
structure Ending (past : List SocketEvent) (world : World) (pending : List (List Byte)) : Prop where
  online : world.socket.state = .online
  flags : (world.socket.jobs.node 0).flags = activeFlags
  content : ∃ plist, (world.socket.jobs.node 0).content = .data plist ∧ Packets plist pending
  some_pending : pending ≠ []
  closing : Closing world.socket.jobs
  holds : ∀ slot, ∃ held, JobHolds (contents world.socket.jobs slot) held
  total : flushed world.out ++ pending.flatten = (queuedSuffixes past).flatten
  log : Logged past world.out

structure Shut (past : List SocketEvent) (world : World) : Prop where
  state : world.socket.state = .shutdown
  log : Logged past world.out

def Closed (past : List SocketEvent) (world : World) : Prop := (∃ pending, Ending past world pending) ∨ Shut past world

section Slots

variable {socket : ApeSocket} {jobs : PoolList Job}

theorem Closing.head (closing : Closing jobs) : jobs.head = some 0 := by
  obtain ⟨second, front, current, behind, shape, -⟩ := closing
  exact shape.chain.1

theorem closing_setContent (closing : Closing jobs) (slot : Nat) (content : Job) : Closing (jobs.setContent slot content) := by
  obtain ⟨second, front, current, behind, shape, first, points, active, kind⟩ := closing
  refine ⟨second, front, current, behind, shape_setContent shape slot content, first, points, ?_, ?_⟩
  · rw [flagsOf_setContent]
    exact active
  · rw [kindOf, flagsOf_setContent]
    exact kind

theorem takeSlot_contents (jobs : PoolList Job) (slot : Nat) (bits : BitVec 32) :
    contents (takeSlot jobs slot bits) = contents jobs := contents_setFlags { jobs with current := some slot } slot _

structure TakesBehind (jobs next : PoolList Job) (slot : Nat) : Prop where
  closing : Closing next
  apart : slot ≠ 0
  flags : flagsOf next 0 = flagsOf jobs 0
  content : contents next 0 = contents jobs 0
  contents : ∀ other, contents next other = contents jobs other ∨ contents next other = .null

/-- Two slots that are not the one taken keep their flags, so the shutdown is still behind the head. -/
theorem takesBehind {front behind : List Nat} {current second slot : Nat} {bits : BitVec 32}
    (shape : Shape jobs (0 :: (front ++ current :: behind))) (first : (front ++ [current]).head? = some second)
    (active : flagsOf jobs second &&& apeSocketJobActive ≠ 0#32) (kind : kindOf jobs second = apeSocketJobShutdown)
    (differ : second ≠ slot)
    (here : slot = current ∨ ∃ left, front ++ current :: behind = (front ++ [current]) ++ slot :: left) :
    TakesBehind jobs (takeSlot jobs slot bits) slot := by
  have nodup := List.nodup_cons.mp shape.nodup
  have inside : slot ∈ front ++ current :: behind := by
    rcases here with rfl | ⟨left, split⟩
    · simp
    · rw [split]
      simp
  have apart : slot ≠ 0 := by
    rintro rfl
    exact nodup.1 inside
  have kept : flagsOf (takeSlot jobs slot bits) second = flagsOf jobs second := by
    rw [takeSlot_flags, Function.update_of_ne differ]
  have taken := takeSlot_shape bits shape slot
  refine { closing := ?_, apart, flags := ?_, content := congrFun (takeSlot_contents _ _ _) 0,
           contents := fun other => .inl (congrFun (takeSlot_contents _ _ _) other) }
  · rcases here with rfl | ⟨left, split⟩
    · exact ⟨second, front, slot, behind, taken, first, rfl, by rw [kept]; exact active, by rw [kindOf, kept]; exact kind⟩
    · rw [split] at taken
      refine ⟨second, front ++ [current], slot, left, taken, ?_, rfl, by rw [kept]; exact active,
        by rw [kindOf, kept]; exact kind⟩
      rw [List.head?_append, first]
      rfl
  · rw [takeSlot_flags, Function.update_of_ne apart.symm]

theorem shutdown_refuses {second : Nat} {type : JobType} (active : flagsOf jobs second &&& apeSocketJobActive ≠ 0#32)
    (kind : kindOf jobs second = apeSocketJobShutdown) : ¬ Accepts jobs second type.flag := by
  rintro (⟨writev, data⟩ | inactive)
  · cases @kind_writev jobs second data .shutdown kind
  · exact active inactive

theorem closing_take (closing : Closing socket.jobs) (type : JobType) :
    ∃ next slot, apeSocketJobGetSlot socket type.flag = .ok ({ socket with jobs := next }, slot) ∧
      TakesBehind socket.jobs next slot := by
  obtain ⟨second, front, current, behind, shape, first, points, active, kind⟩ := closing
  have member : second ∈ front ++ [current] := List.mem_of_head? first
  have nodup := (List.nodup_cons.mp shape.nodup).2
  rcases @getSlot_cases socket (0 :: front) behind current type.flag shape points with
    ⟨accepts, got⟩ | ⟨-, rfl, got⟩ | ⟨-, slot, left, rfl, got⟩
  · refine ⟨_, current, got, takesBehind shape first active kind ?_ (.inl rfl)⟩
    rintro rfl
    exact shutdown_refuses active kind accepts
  · have grown := shape_grow shape (show 0 < 2 by omega)
    have below : ∀ slot ∈ 0 :: (front ++ [current]), slot < socket.jobs.count := shape.below
    have old : ∀ slot ∈ 0 :: (front ++ [current]), flagsOf (apeGrowPool socket.jobs 2).1 slot = flagsOf socket.jobs slot := by
      intro slot member
      have inside := below slot member
      rw [flagsOf_grow, if_neg (by omega)]
    have flags := old second (List.mem_cons_of_mem 0 member)
    have within := below second (List.mem_cons_of_mem 0 member)
    have split : (0 :: (front ++ [current])) ++ List.range' socket.jobs.count 2 =
        0 :: (front ++ current :: [socket.jobs.count, socket.jobs.count + 1]) := by simp [List.range'_succ]
    rw [split] at grown
    have taken := @takesBehind (apeGrowPool socket.jobs 2).1 front [socket.jobs.count, socket.jobs.count + 1] current second
      socket.jobs.count type.flag grown first (by rw [flags]; exact active) (by rw [kindOf, flags]; exact kind) (by omega)
      (.inr ⟨[socket.jobs.count + 1], by simp⟩)
    refine ⟨_, _, got, { closing := taken.closing, apart := taken.apart, flags := ?_, content := ?_, contents := ?_ }⟩
    · rw [taken.flags, old 0 (by simp)]
    · have positive := below 0 (by simp)
      rw [taken.content, contents_grow, if_neg (by omega)]
    · intro other
      rcases taken.contents other with same | null
      · rw [same, contents_grow]
        split
        · exact .inr rfl
        · exact .inl rfl
      · exact .inr null
  · refine ⟨_, slot, got, takesBehind shape first active kind ?_ (.inr ⟨left, by simp⟩)⟩
    rintro rfl
    have twice : front ++ current :: second :: left = (front ++ [current]) ++ second :: left := by simp
    rw [twice] at nodup
    exact (List.nodup_append.mp nodup).2.2 second member second (by simp) rfl

end Slots

section Steps

variable {kernel : Kernel} {maxChunks fuel : Nat} {past : List SocketEvent} {world next : World}
  {pending : List (List Byte)}

theorem logged_memory {out more : List SocketEvent} (log : Logged past out)
    (only : ∀ event ∈ more, memoryOnly event = true) : Logged past (out ++ more) := by
  obtain ⟨events, rfl, graceful⟩ := log
  exact ⟨events ++ more, List.append_assoc _ _ _, graceful_memory graceful only⟩

theorem logged_snoc {out : List SocketEvent} {event : SocketEvent} (log : Logged past out)
    (allowed : ∀ events, out = past ++ events → Allowed past events event) : Logged past (out ++ [event]) := by
  obtain ⟨events, rfl, graceful⟩ := log
  exact ⟨events ++ [event], List.append_assoc _ _ _, graceful_snoc graceful (allowed events rfl)⟩

theorem keeps_logged (past : List SocketEvent) : Keeps (Logged past) (queuedSuffixes past).flatten where
  frees out freed frees log := logged_memory log (free_memory frees)
  offers out chunks reply log first := by
    apply logged_snoc log
    rintro events rfl
    exact first

theorem Ending.congr (ending : Ending past world pending) (state : next.socket.state = world.socket.state)
    (jobs : next.socket.jobs = world.socket.jobs) (flush : flushed next.out = flushed world.out)
    (log : Logged past next.out) : Ending past next pending :=
  { online := state.trans ending.online, flags := jobs ▸ ending.flags, content := jobs ▸ ending.content,
    some_pending := ending.some_pending, closing := jobs ▸ ending.closing, holds := jobs ▸ ending.holds,
    total := by rw [flush, ending.total]
    log }

theorem ending_refused (ending : Ending past world pending) {freed : List SocketEvent}
    (frees : OnlyFrees freed) : Ending past (world.emit freed) pending := by
  refine @Ending.congr past world (world.emit freed) pending ending rfl rfl ?_
    (logged_memory ending.log (free_memory frees))
  have only : ∀ event ∈ freed, aside event = true := frees_aside frees
  show flushed (world.out ++ freed) = _
  rw [flushed_append, flushed_aside only, List.append_nil]

theorem ending_queued (ending : Ending past world pending) {data : List Byte} (object : data.length < 2 ^ 63)
    (some_data : data ≠ []) (dataType : DataAutorelease) :
    ∃ next, apeSocketQueueData world data 0#64 dataType = .ok next ∧ (Calm next → Ending past next pending) := by
  obtain ⟨jobs, slot, got, takes⟩ := closing_take ending.closing .writev
  obtain ⟨held, holds⟩ : ∃ held, JobHolds (jobs.node slot).content held := by
    rcases takes.contents slot with same | null
    · obtain ⟨held, holds⟩ := ending.holds slot
      exact ⟨held, (show (jobs.node slot).content = _ from same) ▸ holds⟩
    · exact ⟨[], .inl ⟨null, rfl⟩⟩
  obtain ⟨plist, total, packets, queued⟩ :=
    @queueData_into world slot held data 0#64 jobs got holds object (List.length_pos_of_ne_nil some_data) dataType
  refine ⟨_, queued, fun calm => ?_⟩
  have kept := calm_queued calm
  rw [kept]
  have content : contents (jobs.setContent slot (.data plist)) = Function.update (contents jobs) slot (.data plist) :=
    contents_setContent jobs slot _
  have first : contents (jobs.setContent slot (.data plist)) 0 = contents world.socket.jobs 0 := by
    rw [content, Function.update_of_ne takes.apart.symm, takes.content]
  refine { online := ending.online, flags := ?_, content := ?_, some_pending := ending.some_pending,
           closing := closing_setContent takes.closing slot _, holds := ?_, total := ?_,
           log := logged_memory ending.log (by simp [memoryOnly]) }
  · show flagsOf (jobs.setContent slot (.data plist)) 0 = _
    rw [flagsOf_setContent, takes.flags]
    exact ending.flags
  · obtain ⟨list, listed, packed⟩ := ending.content
    exact ⟨list, first.trans listed, packed⟩
  · intro other
    show ∃ held, JobHolds (contents (jobs.setContent slot (.data plist)) other) held
    rw [content]
    by_cases same : other = slot
    · subst same
      exact ⟨_, .inr ⟨plist, Function.update_self _ _ _, packets⟩⟩
    · rw [Function.update_of_ne same]
      rcases takes.contents other with old | null
      · rw [old]
        exact ending.holds other
      · exact ⟨[], .inl ⟨null, rfl⟩⟩
  · show flushed (world.out ++ [.queued _]) ++ _ = _
    rw [flushed_append, ← ending.total]
    simp [flushed]

theorem ending_write (ending : Ending past world pending) (data : DataObject) (dataType : DataAutorelease) :
    Leads (world.performLoop kernel maxChunks fuel (.write data dataType)) (Closed past) := by
  apply leads_outcome
  intro outcome returned
  by_cases none : data.bytes = []
  · rw [apeSocketWrite, if_pos (.inr (by rw [none]; rfl))] at returned
    cases returned
    exact ⟨_, -1, rfl, fun _ => .inl ⟨pending, ending_refused ending (release_free _ _)⟩⟩
  · have active : (world.socket.jobs.node 0).active = true := by
      rw [PoolNode.active, ending.flags]
      decide
    rw [write_starts ending.online ending.closing.head none data.object, if_pos (.inr active)] at returned
    obtain ⟨next, queued, still⟩ := ending_queued ending data.object none dataType
    rw [queued] at returned
    cases returned
    exact ⟨next, _, rfl, fun calm => .inl ⟨pending, still calm⟩⟩

theorem ending_shutdown (ending : Ending past world pending) :
    Leads (world.performLoop kernel maxChunks fuel .shutdown) (Closed past) := by
  have active : (world.socket.jobs.node 0).active = true := by
    rw [PoolNode.active, ending.flags]
    decide
  obtain ⟨jobs, slot, got, takes⟩ := closing_take ending.closing .shutdown
  refine .inr ⟨{ world with socket := { world.socket with jobs } }, ?_, fun _ => .inl ⟨pending, ?_⟩⟩
  · have asked : apeSocketShutdown world = .ok { world with socket := { world.socket with jobs } } := by
      rw [apeSocketShutdown]
      simp only [ending.online, ending.closing.head, active, or_true, ite_true,
        show apeSocketJobGetSlot world.socket apeSocketJobShutdown = _ from got]
      rfl
    rw [World.performLoop, World.performApi, asked]
    rfl
  · obtain ⟨list, listed, packed⟩ := ending.content
    refine { online := ending.online, flags := takes.flags.trans ending.flags,
             content := ⟨list, takes.content.trans listed, packed⟩, some_pending := ending.some_pending,
             closing := takes.closing, holds := ?_, total := ending.total, log := ending.log }
    intro other
    show ∃ held, JobHolds (contents jobs other) held
    rcases takes.contents other with old | null
    · rw [old]
      exact ending.holds other
    · exact ⟨[], .inl ⟨null, rfl⟩⟩

theorem ending_writable (ending : Ending past world pending) :
    Leads (world.performLoop kernel maxChunks fuel .writable) (Closed past) :=
  .inr ⟨_, rfl, fun _ => .inl ⟨pending, ending.congr rfl rfl rfl ending.log⟩⟩

/-- The shutdown is the head of the list, and all that was queued before is flushed. -/
structure Ready (past : List SocketEvent) (last : DoingJobs) : Prop where
  label : last.label = .job
  online : last.world.socket.state = .online
  head : ∃ second, last.world.socket.jobs.head = some second ∧
    flagsOf last.world.socket.jobs second &&& apeSocketJobActive ≠ 0#32 ∧
    kindOf last.world.socket.jobs second = apeSocketJobShutdown
  total : flushed last.world.out = (queuedSuffixes past).flatten
  log : Logged past last.world.out

theorem ending_finishes (ending : Ending past world pending) :
    Finishes (Logged past) (queuedSuffixes past).flatten world.socket 0 0 (Ready past) := by
  intro called plist offering
  obtain ⟨second, front, current, behind, shape, first, points, active, kind⟩ := ending.closing
  obtain ⟨bytes, socket⟩ := offering.socket
  have jobs := offering.stored 0
  have apart : second ≠ 0 := by
    rintro rfl
    exact (List.nodup_cons.mp shape.nodup).1 (by
      have member := List.mem_of_head? first
      rw [List.mem_append, List.mem_singleton] at member
      rw [List.mem_append, List.mem_cons]
      tauto)
  let freed := released (storeList called 0 plist).socket.jobs 0
  have slots : freed = released (world.socket.jobs.setContent 0 (.data plist)) 0 := congrArg (released · 0) jobs
  have chained : Shape freed (0 :: (front ++ current :: behind)) := by
    rw [slots]
    exact shape_setFlags (shape_setContent shape 0 _) 0 _
  have pointed : freed.current = some current := by
    rw [slots]
    exact points
  have flags : flagsOf freed second = flagsOf world.socket.jobs second := by
    rw [slots, released, flagsOf_setFlags, Function.update_of_ne apart, flagsOf_setContent]
  obtain ⟨moved, next, turned, turnedShape, same, -⟩ := headToCurrent_shape chained pointed
  refine ⟨{ world := { storeList called 0 plist with socket := { (storeList called 0 plist).socket with jobs := moved } },
            njobsdone := 1 }, ?_, { label := rfl, online := ?_, head := ⟨second, ?_, ?_, ?_⟩, total := ?_, log := ?_ }⟩
  · exact finishJob_ok turned
  · show called.socket.state = _
    rw [socket]
    exact ending.online
  · show moved.head = _
    cases front with
    | nil => exact turnedShape.chain.1.trans first
    | cons other front => exact turnedShape.chain.1.trans first
  · show flagsOf moved second &&& _ ≠ _
    rw [same, flags]
    exact active
  · show flagsOf moved second &&& _ = _
    rw [same, flags]
    exact kind
  · have total := offering.total
    rw [List.flatten_nil, List.drop_nil, List.append_nil] at total
    exact total
  · exact offering.good

theorem ready_turn {last : DoingJobs} (ready : Ready past last) :
    ∃ next, doJobsTurn kernel maxChunks last = .done (.ok (next, -1)) ∧ Shut past next := by
  rcases last with ⟨last, done, label⟩
  cases ready.label
  obtain ⟨second, first, active, kind⟩ := ready.head
  have head : last.socket.jobs.head = some second := first
  have busy : (last.socket.jobs.node second).active = true := (active_iff _ _).mpr active
  have type : (last.socket.jobs.node second).flags &&& ~~~(apePoolAllFlags ||| apeSocketJobActive) = apeSocketJobShutdown :=
    kind
  refine ⟨{ last with socket := { last.socket with state := .shutdown } }.emit [.shutdown], ?_, rfl, ?_⟩
  · show jobTurn maxChunks last done = _
    simp only [jobTurn, head, busy, type, Bool.not_true, Bool.false_eq_true, ite_false, ite_true,
      show ¬ apeSocketJobShutdown = apeSocketJobWritev by decide, show ¬ apeSocketJobShutdown = apeSocketJobSendfile by decide,
      show last.socket.state = .online from ready.online]
  · apply logged_snoc ready.log
    intro events out
    show flushed (past ++ events) = _
    rw [← out]
    exact ready.total

theorem ending_blocked (ending : Ending past world pending) {called : World} {plist : PoolList Packet}
    {more : List (List Byte)}
    (offering : Offering (Logged past) (queuedSuffixes past).flatten world.socket called plist more 0)
    (some_more : more ≠ []) :
    Ending past { storeList called 0 plist with
      socket := { (storeList called 0 plist).socket with wouldBlock := true } } more := by
  obtain ⟨bytes, socket⟩ := offering.socket
  have jobs := offering.stored 0
  have content : contents (storeList called 0 plist).socket.jobs =
      Function.update (contents world.socket.jobs) 0 (.data plist) := by
    rw [jobs, contents_setContent]
  refine { online := ?_, flags := ?_, content := ⟨plist, ?_, offering.packets⟩, some_pending := some_more, closing := ?_,
           holds := ?_, total := offering.total, log := offering.good }
  · show called.socket.state = _
    rw [socket]
    exact ending.online
  · show flagsOf (storeList called 0 plist).socket.jobs 0 = _
    rw [jobs, flagsOf_setContent]
    exact ending.flags
  · exact (congrFun content 0).trans (Function.update_self _ _ _)
  · show Closing (storeList called 0 plist).socket.jobs
    rw [jobs]
    exact closing_setContent ending.closing 0 _
  · intro slot
    show ∃ held, JobHolds (contents (storeList called 0 plist).socket.jobs slot) held
    rw [content]
    by_cases same : slot = 0
    · subst same
      exact ⟨more, .inr ⟨plist, Function.update_self _ _ _, offering.packets⟩⟩
    · rw [Function.update_of_ne same]
      exact ending.holds slot

theorem ending_jobs (some_chunks : 0 < maxChunks) (ending : Ending past world pending) :
    Leads (world.performLoop kernel maxChunks fuel .jobs) (Closed past) := by
  by_cases ready : world.socket.state = .online ∧ world.socket.wouldBlock = false
  · rw [World.performLoop, if_pos ready]
    apply leads_outcome
    intro outcome returned
    obtain ⟨plist, content, packets⟩ := ending.content
    have starts : doJobsTurn kernel maxChunks { world } =
        .again { world, label := .rewrite 0 plist (pending.take maxChunks) } :=
      jobTurn_starts ending.closing.head ending.flags content packets
    have offering : Offering (Logged past) (queuedSuffixes past).flatten world.socket world plist pending 0 :=
      { socket := ⟨world.socket.currentBufferMemoryBytes, rfl⟩, packets, inside := Nat.zero_le _, total := ending.total,
        good := ending.log }
    have during : During maxChunks (Logged past) (queuedSuffixes past).flatten world.socket 0 0
        { world, label := .rewrite 0 plist (pending.take maxChunks) } :=
      ⟨rfl, rfl, pending, offering, ending.some_pending, rfl⟩
    cases fuel with
    | zero => cases returned
    | succ fuel =>
      rw [apeSocketDoJobs, loop_again starts] at returned
      rcases offering_loop (keeps_logged past) some_chunks (ending_finishes ending) during returned with
        ⟨next, ret, rfl, error | ⟨called, list, more, left, some_more, rfl⟩⟩ | ⟨last, left, exits, rest⟩
      · exact ⟨next, ret, rfl, fun calm => (calm_error calm error).elim⟩
      · exact ⟨_, ret, rfl, fun _ => .inl ⟨more, ending_blocked ending left some_more⟩⟩
      · obtain ⟨next, turn, shut⟩ := @ready_turn kernel maxChunks past last exits
        cases left with
        | zero => cases rest
        | succ left =>
          rw [loop_done turn] at rest
          cases rest
          exact ⟨next, -1, rfl, fun _ => .inr shut⟩
  · rw [World.performLoop, if_neg ready]
    exact .inr ⟨world, rfl, fun _ => .inl ⟨pending, ending⟩⟩

theorem shut_step (shut : Shut past world) (call : LoopCall) :
    Leads (world.performLoop kernel maxChunks fuel call) (Closed past) := by
  have offline : ¬ world.socket.state = .online := by simp [shut.state]
  cases call with
  | write data dataType =>
    apply leads_outcome
    intro outcome returned
    rw [apeSocketWrite, if_pos (.inl offline)] at returned
    cases returned
    exact ⟨_, -1, rfl, fun _ => .inr ⟨shut.state, logged_memory shut.log (free_memory (release_free _ _))⟩⟩
  | shutdown =>
    refine .inr ⟨world, ?_, fun _ => .inr shut⟩
    rw [World.performLoop, World.performApi, apeSocketShutdown, shut.state]
    rfl
  | writable => exact .inr ⟨_, rfl, fun _ => .inr ⟨shut.state, shut.log⟩⟩
  | jobs =>
    rw [World.performLoop, if_neg fun ready => offline ready.1]
    exact .inr ⟨world, rfl, fun _ => .inr shut⟩

theorem closed_step (some_chunks : 0 < maxChunks) (closed : Closed past world) (call : LoopCall) :
    Leads (world.performLoop kernel maxChunks fuel call) (Closed past) := by
  rcases closed with ⟨pending, ending⟩ | shut
  · cases call with
    | write data dataType => exact ending_write ending data dataType
    | shutdown => exact ending_shutdown ending
    | writable => exact ending_writable ending
    | jobs => exact ending_jobs some_chunks ending
  · exact shut_step shut call

/-- The slot that is taken for the first shutdown is the one behind the head, and it was never used before. -/
theorem open_ends (opened : Open world pending) {plist : PoolList Packet} (some_pending : pending ≠ [])
    (active : (world.socket.jobs.node 0).flags = activeFlags) (content : (world.socket.jobs.node 0).content = .data plist)
    (packets : Packets plist pending) {list : PoolList Job} {slot : Nat} {left : List Nat}
    (chained : Shape list (0 :: slot :: left)) (apart : slot ≠ 0)
    (kept : ∀ other, contents list other = contents world.socket.jobs other ∨ contents list other = .null)
    (same : contents list 0 = contents world.socket.jobs 0) (first : flagsOf list 0 = flagsOf world.socket.jobs 0)
    (unused : flagsOf list slot = 0#32 ∨ flagsOf list slot = apePoolAlloc) :
    Ending world.out { world with socket := { world.socket with jobs := takeSlot list slot apeSocketJobShutdown } }
      pending := by
  have taken : flagsOf (takeSlot list slot apeSocketJobShutdown) slot =
      flagsOf list slot ||| (apeSocketJobActive ||| apeSocketJobShutdown) := by
    rw [takeSlot_flags, Function.update_self]
  have head : contents (takeSlot list slot apeSocketJobShutdown) 0 = contents world.socket.jobs 0 := by
    rw [takeSlot_contents, same]
  refine { online := opened.online, flags := ?_, content := ⟨plist, head.trans content, packets⟩, some_pending,
           closing := ⟨slot, [], slot, left, takeSlot_shape _ chained slot, rfl, rfl, ?_, ?_⟩, holds := ?_,
           total := opened.total, log := ⟨[], (List.append_nil _).symm, graceful_nil _⟩ }
  · show flagsOf (takeSlot list slot apeSocketJobShutdown) 0 = _
    rw [takeSlot_flags, Function.update_of_ne apart.symm, first]
    exact active
  · rw [taken]
    rcases unused with zero | alloc
    · rw [zero]
      decide
    · rw [alloc]
      decide
  · rw [kindOf, taken]
    rcases unused with zero | alloc
    · rw [zero]
      decide
    · rw [alloc]
      decide
  · intro other
    show ∃ held, JobHolds (contents (takeSlot list slot apeSocketJobShutdown) other) held
    rw [takeSlot_contents]
    rcases kept other with old | null
    · rw [old]
      by_cases here : other = 0
      · subst here
        exact ⟨pending, opened.holds⟩
      · exact ⟨[], .inl ⟨(opened.others other here).2, rfl⟩⟩
    · exact ⟨[], .inl ⟨null, rfl⟩⟩

theorem open_shutdown (opened : Open world pending) :
    Leads (world.performLoop kernel maxChunks fuel .shutdown) (Closed world.out) := by
  have start : Logged world.out world.out := ⟨[], (List.append_nil _).symm, graceful_nil _⟩
  have asked : World.performLoop kernel maxChunks fuel world .shutdown =
      Stop.outcome (some (apeSocketShutdown world)) := rfl
  rw [asked, apeSocketShutdown]
  simp only [opened.online, opened.head]
  rcases opened.flags.busy opened.holds with ⟨none, inactive⟩ | ⟨some_pending, active, plist, content, packets⟩
  · have ready : ¬ (world.socket.wouldBlock = true ∨ (world.socket.jobs.node 0).active = true) := by
      rintro (blocked | busy)
      · exact opened.blocked blocked none
      · rw [inactive] at busy
        cases busy
    rw [if_neg ready]
    refine .inr ⟨_, rfl, fun _ => .inr ⟨rfl, ?_⟩⟩
    apply logged_snoc start
    intro events same
    have nothing : events = [] := List.self_eq_append_right.mp same
    have total := opened.total
    rw [none, List.flatten_nil, List.append_nil] at total
    show flushed (world.out ++ events) = _
    rw [nothing, List.append_nil, total]
  · have busy : (world.socket.jobs.node 0).active = true := by
      rw [PoolNode.active, active]
      decide
    rw [if_pos (.inr busy)]
    obtain ⟨rest, shape⟩ := opened.shape
    have refused : ¬ Accepts world.socket.jobs 0 apeSocketJobShutdown := by
      rintro (⟨writev, -⟩ | quiet)
      · cases writev
      · exact (active_iff _ _).mp busy quiet
    rcases @getSlot_cases world.socket [] rest 0 apeSocketJobShutdown shape opened.current with
      ⟨accepts, -⟩ | ⟨-, rfl, got⟩ | ⟨-, slot, left, rfl, got⟩
    · exact absurd accepts refused
    · rw [got]
      have positive : 0 < world.socket.jobs.count := shape.below 0 (by simp)
      have grown := shape_grow shape (show 0 < 2 by omega)
      refine .inr ⟨_, rfl, fun _ => .inl ⟨pending, open_ends opened some_pending active content packets grown
        (by omega) ?_ ?_ ?_ ?_⟩⟩
      · intro other
        rw [contents_grow]
        split
        · exact .inr rfl
        · exact .inl rfl
      · rw [contents_grow, if_neg (by omega)]
      · rw [flagsOf_grow, if_neg (by omega)]
      · rw [flagsOf_grow, if_pos (by omega), if_pos rfl]
        exact .inr rfl
    · rw [got]
      have apart : slot ≠ 0 := by
        rintro rfl
        exact (List.nodup_cons.mp shape.nodup).1 (by simp)
      exact .inr ⟨_, rfl, fun _ => .inl ⟨pending, open_ends opened some_pending active content packets shape apart
        (fun _ => .inl rfl) rfl rfl (.inl (opened.others slot apart).1)⟩⟩

theorem open_step (some_chunks : 0 < maxChunks) (opened : Open world pending) {call : LoopCall}
    (other : call ≠ .shutdown) :
    Leads (world.performLoop kernel maxChunks fuel call) fun next => ∃ more, Open next more := by
  cases call with
  | write data dataType =>
    rcases @open_write kernel maxChunks fuel world pending opened data dataType with endless | ⟨next, performed, still⟩
    · exact .inl endless
    · exact .inr ⟨next, performed, fun calm => (still calm).1⟩
  | shutdown => exact absurd rfl other
  | writable => exact open_writable opened
  | jobs => exact open_jobs some_chunks opened

theorem open_fresh (limit total : SizeT) : Open (freshSocket limit total) [] where
  online := rfl
  head := rfl
  current := rfl
  shape := ⟨[1], shape_init (by omega)⟩
  others := by
    intro slot differ
    have flags : flagsOf (freshSocket limit total).socket.jobs slot = 0#32 := by
      show (apeNewPool (fun _ => ({ content := default } : PoolNode Job)) 0 2 slot).flags = _
      by_cases inside : slot < 2
      · simp [apeNewPool, inside, differ]
      · simp [apeNewPool, inside]
    refine ⟨flags, ?_⟩
    show (apeNewPool (fun _ => ({ content := default } : PoolNode Job)) 0 2 slot).content = _
    by_cases inside : slot < 2
    · simp [apeNewPool, inside]
      rfl
    · simp [apeNewPool, inside]
      rfl
  holds := .inl ⟨rfl, rfl⟩
  flags := .inl ⟨rfl, rfl⟩
  blocked := nofun
  total := rfl
  running := nofun

end Steps

section Runs

variable {kernel : Kernel} {maxChunks fuel : Nat} {start world : World}

theorem calm_run {property : World → Prop} {allowed : LoopCall → Prop} {calls : List LoopCall}
    (steps : ∀ world call, property world → allowed call →
      Leads (World.performLoop kernel maxChunks fuel world call) property)
    (initial : property start) (all : ∀ call ∈ calls, allowed call)
    (calm : Throughout (World.performLoop kernel maxChunks fuel) start calls Calm) :
    Throughout (World.performLoop kernel maxChunks fuel) start calls property := by
  let condition := fun (world : World) (call : LoopCall) => allowed call ∧
    ∀ next, World.performLoop kernel maxChunks fuel world call = .ok next → Calm next
  apply @throughout_of_each _ _ _ (World.performLoop kernel maxChunks fuel) start calls property condition initial
  · intro world call next kept met performed
    rcases steps world call kept met.1 with endless | ⟨found, leads, holds⟩
    · cases endless.symm.trans performed
    · cases leads.symm.trans performed
      exact holds (met.2 next performed)
  · intro before call after world split reached
    refine ⟨all call (by rw [split]; simp), fun next performed => ?_⟩
    apply calm (before ++ [call]) after next (by rw [split, List.append_assoc, List.singleton_append])
    rw [runAll_snoc reached]
    exact performed

/-- The socket is shut down only once the kernel accepted all that was written before the first shutdown was asked for,
    and what is written later is never offered to it. -/
theorem graceful_close (kernel : Kernel) {maxChunks : Nat} (some_chunks : 0 < maxChunks) (fuel : Nat) (limit total : SizeT)
    (before after : List LoopCall) (first : .shutdown ∉ before)
    (calm : Throughout (World.performLoop kernel maxChunks fuel) (freshSocket limit total)
      (before ++ .shutdown :: after) Calm)
    (opened : World)
    (reached : runAll (World.performLoop kernel maxChunks fuel) (freshSocket limit total) before = .ok opened) :
    .shutdown ∉ opened.out ∧
      (∀ early data dataType later found next, before = early ++ .write data dataType :: later →
        runAll (World.performLoop kernel maxChunks fuel) (freshSocket limit total) early = .ok found →
        found.performLoop kernel maxChunks fuel (.write data dataType) = .ok next → Accounted data.bytes found next) ∧
      ∀ done rest world, .shutdown :: after = done ++ rest →
        runAll (World.performLoop kernel maxChunks fuel) opened done = .ok world →
        ∃ events, world.out = opened.out ++ events ∧ Graceful opened.out events := by
  have calmBefore : Throughout (World.performLoop kernel maxChunks fuel) (freshSocket limit total) before Calm := by
    intro early late world split run
    apply calm early (late ++ .shutdown :: after) world ?_ run
    rw [split, List.append_assoc]
  have phase : Throughout (World.performLoop kernel maxChunks fuel) (freshSocket limit total) before
      fun world => ∃ pending, Open world pending := by
    apply @calm_run kernel maxChunks fuel _ (fun world => ∃ pending, Open world pending) (· ≠ .shutdown) before ?_
      ⟨[], open_fresh limit total⟩ ?_ calmBefore
    · rintro world call ⟨pending, still⟩ other
      exact open_step some_chunks still other
    · rintro call member rfl
      exact first member
  obtain ⟨pending, still⟩ := phase before [] opened (List.append_nil _).symm reached
  refine ⟨still.running, ?_, ?_⟩
  · intro early data dataType later found next split run performed
    obtain ⟨held, state⟩ := phase early _ found split run
    rcases @open_write kernel maxChunks fuel found held state data dataType with endless | ⟨result, leads, wrote⟩
    · cases endless.symm.trans performed
    · cases leads.symm.trans performed
      refine (wrote ?_).2
      apply calmBefore (early ++ [.write data dataType]) later next
      · rw [split, List.append_assoc, List.singleton_append]
      · rw [runAll_snoc run]
        exact performed
  · intro done rest world split run
    cases done with
    | nil =>
      cases run
      exact ⟨[], (List.append_nil _).symm, graceful_nil _⟩
    | cons call done =>
      obtain ⟨rfl, tail⟩ := List.cons.inj split
      rw [runAll] at run
      cases performed : World.performLoop kernel maxChunks fuel opened .shutdown with
      | error reason =>
        rw [performed] at run
        cases run
      | ok ending =>
        rw [performed] at run
        have later : ∀ more, runAll (World.performLoop kernel maxChunks fuel) (freshSocket limit total)
            (before ++ .shutdown :: more) = runAll (World.performLoop kernel maxChunks fuel) ending more := by
          intro more
          rw [runAll_append, reached]
          show runAll _ opened (.shutdown :: more) = _
          rw [runAll, performed]
        have closed : Closed opened.out ending := by
          rcases @open_shutdown kernel maxChunks fuel opened pending still with endless | ⟨result, leads, shut⟩
          · cases endless.symm.trans performed
          · cases leads.symm.trans performed
            exact shut (calm (before ++ [.shutdown]) after ending (by simp) (later []))
        have calmAfter : Throughout (World.performLoop kernel maxChunks fuel) ending after Calm := by
          intro early late state split run
          apply calm (before ++ .shutdown :: early) late state
          · rw [split, List.append_assoc, List.cons_append]
          · rw [later]
            exact run
        have ends := @calm_run kernel maxChunks fuel ending (Closed opened.out) (fun _ => True) after
          (fun world call state _ => closed_step some_chunks state call) closed (fun _ _ => trivial) calmAfter
        rcases ends done rest world tail run with ⟨left, waiting⟩ | shut
        · exact waiting.log
        · exact shut.log

end Runs

def calm (world : World) : Bool := world.out.all (!ioError ·) && !decide (Overflows world.socket)

theorem calm_iff {world : World} : calm world = true ↔ Calm world := by
  rw [calm, Bool.and_eq_true, List.all_eq_true, Bool.not_eq_true', decide_eq_false_iff_not]
  constructor
  · rintro ⟨errors, buffer⟩
    exact ⟨fun event member => by simpa using errors event member, buffer⟩
  · rintro ⟨errors, buffer⟩
    exact ⟨fun event member => by simpa using errors event member, buffer⟩

/-- What waits when the shutdown is asked for is flushed first, and what is written later is not. -/
theorem graceful_close_hesitant :
    ∃ opened, runAll (World.performLoop hesitant 1024 20) (freshSocket 0 0) [.write twoBytes .static] = .ok opened ∧
      .shutdown ∉ opened.out ∧ ∀ world, runAll (World.performLoop hesitant 1024 20) opened
        [.shutdown, .write twoBytes .static, .writable, .jobs, .jobs] = .ok world →
          ∃ events, world.out = opened.out ++ events ∧ Graceful opened.out events := by
  have checked : checkAll (World.performLoop hesitant 1024 20) calm (freshSocket 0 0)
      ([.write twoBytes .static] ++ .shutdown :: [.write twoBytes .static, .writable, .jobs, .jobs]) = true := by rfl
  have runs : (runAll (World.performLoop hesitant 1024 20) (freshSocket 0 0) [.write twoBytes .static]).isOk = true := by
    rfl
  cases reached : runAll (World.performLoop hesitant 1024 20) (freshSocket 0 0) [.write twoBytes .static] with
  | error reason =>
    rw [reached] at runs
    cases runs
  | ok opened =>
    have closes := graceful_close hesitant (by decide) 20 0 0 _ _ (by simp)
      (fun before after state split run => calm_iff.mp (throughout_of_check checked before after state split run))
      opened reached
    exact ⟨opened, rfl, closes.1, fun world run => closes.2.2 _ [] world (List.append_nil _).symm run⟩

end ZapeProof
