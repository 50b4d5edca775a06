import Zape.Ape.Graceful

/-! The phases of a socket that is closed: open, ending, and shut. -/
namespace ZapeProof

open Machine ZapeModel

/-- Until a shutdown is asked for: the socket has one job at most. -/
structure Open (world : World) (pending : List (List Byte)) : Prop where
  online : world.socket.state = .online
  head : world.socket.jobs.head = some 0
  current : world.socket.jobs.current = some 0
  shape : ∃ rest, Shape world.socket.jobs (0 :: rest)
  others : ∀ slot, slot ≠ 0 → flagsOf world.socket.jobs slot = 0#32 ∧ contents world.socket.jobs slot = .null
  holds : JobHolds (world.socket.jobs.node 0).content pending
  flags : JobFlags (world.socket.jobs.node 0) pending
  blocked : world.socket.wouldBlock = true → pending ≠ []
  total : flushed world.out ++ pending.flatten = (queuedSuffixes world.out).flatten
  running : .shutdown ∉ world.out

section Open

variable {kernel : Kernel} {maxChunks fuel : Nat} {world next : World} {pending : List (List Byte)}

theorem shutdownNow_overflows (world : World) : Overflows (apeSocketShutdownNow world).socket ↔ Overflows world.socket := by
  obtain ⟨state, events, shut, -⟩ := shutdownNow_kept world
  rw [shut]
  rfl

/-- In a calm world nothing more than the buffer may hold was queued. -/
theorem calm_queued {queued : World}
    (calm : Calm (if Overflows queued.socket then apeSocketShutdownNow queued else queued)) :
    (if Overflows queued.socket then apeSocketShutdownNow queued else queued) = queued := by
  by_cases overflows : Overflows queued.socket
  · rw [if_pos overflows] at calm
    exact absurd ((shutdownNow_overflows queued).mpr overflows) calm.buffer
  · exact if_neg overflows

theorem leads_outcome {result : Option (Except Fault (World × Int))} {property : World → Prop}
    (post : ∀ outcome, result = some outcome →
      ∃ next ret, outcome = .ok (next, ret) ∧ (Calm next → property next)) :
    Leads (Stop.outcome (result.map (·.map Prod.fst))) property := by
  rcases result with _ | outcome
  · exact .inl rfl
  · obtain ⟨next, ret, rfl, calm⟩ := post outcome rfl
    exact .inr ⟨next, rfl, calm⟩

theorem calm_error (calm : Calm next) (error : ∃ event ∈ next.out, ioError event = true) : False := by
  obtain ⟨event, member, failed⟩ := error
  rw [calm.errors event member] at failed
  cases failed

theorem open_stored (opened : Open world pending) {called : World} {events : List SocketEvent} {suffix : List Byte}
    {plist : PoolList Packet} {total : SizeT} {wouldBlock : Bool} (out : called.out = world.out ++ events)
    (socket : called.socket = { world.socket with wouldBlock }) (only : ∀ event ∈ events, direct event = true)
    (packets : Packets plist (pending ++ [suffix])) :
    Open (stored called 0 plist suffix total) (pending ++ [suffix]) := by
  have jobs : (stored called 0 plist suffix total).socket.jobs =
      (claimed world.socket.jobs 0).setContent 0 (.data plist) := by
    simp only [stored, socket]
  obtain ⟨rest, shape⟩ := opened.shape
  refine { online := ?_, head := ?_, current := ?_, shape := ⟨rest, ?_⟩, others := ?_, holds := .inr ⟨plist, ?_, packets⟩,
           flags := .inr ?_, blocked := fun _ => by simp, total := ?_, running := ?_ }
  · simp only [stored, socket, opened.online]
  · rw [jobs]
    exact opened.head
  · rw [jobs]
    exact opened.current
  · rw [jobs]
    exact shape_setContent (shape_setFlags shape 0 _) 0 _
  · intro slot differ
    rw [jobs, flagsOf_setContent, contents_setContent, Function.update_of_ne differ]
    have kept : contents (claimed world.socket.jobs 0) slot = contents world.socket.jobs slot := by
      show ((claimed world.socket.jobs 0).node slot).content = _
      simp [claimed, PoolList.setFlags, PoolList.modify, contents, differ]
    rw [kept, claimed, flagsOf_setFlags, Function.update_of_ne differ]
    exact opened.others slot differ
  · rw [jobs]
    simp [PoolList.setContent, PoolList.modify]
  · rw [jobs, if_neg (by simp), ← opened.flags.claimed]
    simp [claimed, PoolList.setContent, PoolList.setFlags, PoolList.modify]
  · show flushed (called.out ++ [.queued suffix]) ++ _ = (queuedSuffixes (called.out ++ [.queued suffix])).flatten
    rw [out, flushed_append, flushed_append, queuedSuffixes_append, queuedSuffixes_append, flushed_direct only,
      queued_direct only, List.append_nil, List.append_nil, List.flatten_append, List.flatten_append, ← opened.total]
    simp [flushed, queuedSuffixes]
  · show .shutdown ∉ called.out ++ [.queued suffix]
    rw [out]
    intro member
    rcases List.mem_append.mp member with earlier | last
    · rcases List.mem_append.mp earlier with old | new
      · exact opened.running old
      · cases only _ new
    · cases List.mem_singleton.mp last

theorem open_write (opened : Open world pending) (data : DataObject) (dataType : DataAutorelease) :
    Leads (world.performLoop kernel maxChunks fuel (.write data dataType)) fun next =>
      (∃ more, Open next more) ∧ Accounted data.bytes world next := by
  apply leads_outcome
  intro outcome returned
  obtain ⟨next, ret, rfl, wrote⟩ := write_wrote opened.online opened.head opened.current opened.flags.takes opened.holds
    data.object fuel outcome returned
  refine ⟨next, ret, rfl, fun calm => ?_⟩
  rcases wrote with error | ⟨events, out, socket, only, written⟩ |
    ⟨called, events, suffix, plist, total, wouldBlock, out, socket, only, written, -, packets, rfl⟩
  · exact (calm_error calm error).elim
  · refine ⟨⟨pending, ?_⟩, events, out, ?_⟩
    · refine { online := by rw [socket, opened.online], head := by rw [socket, opened.head],
               current := by rw [socket, opened.current], shape := socket ▸ opened.shape,
               others := socket ▸ opened.others, holds := socket ▸ opened.holds, flags := socket ▸ opened.flags,
               blocked := socket ▸ opened.blocked, total := ?_, running := ?_ }
      · rw [out, flushed_append, queuedSuffixes_append, flushed_direct only, queued_direct only, List.append_nil,
          List.append_nil, opened.total]
      · rw [out]
        intro member
        rcases List.mem_append.mp member with old | new
        · exact opened.running old
        · cases only _ new
    · rw [queued_direct only, written, List.flatten_nil, List.append_nil]
  · rw [calm_queued calm]
    refine ⟨⟨_, open_stored opened out socket only packets⟩, events ++ [.queued suffix], ?_, ?_⟩
    · show called.out ++ [.queued suffix] = _
      rw [out, List.append_assoc]
    · have none : writtenBytes data.bytes [.queued suffix] = [] := rfl
      have one : queuedSuffixes [.queued suffix] = [suffix] := rfl
      rw [queuedSuffixes_append, queued_direct only, writtenBytes_append, none, one, List.append_nil, List.nil_append,
        List.flatten_singleton]
      exact written

theorem open_writable (opened : Open world pending) :
    Leads (world.performLoop kernel maxChunks fuel .writable) fun next => ∃ more, Open next more := by
  refine .inr ⟨_, rfl, fun _ => ⟨pending, ?_⟩⟩
  exact { online := opened.online, head := opened.head, current := opened.current, shape := opened.shape,
          others := opened.others, holds := opened.holds, flags := opened.flags, blocked := nofun, total := opened.total,
          running := opened.running }

def Running (total : List Byte) (out : List SocketEvent) : Prop :=
  .shutdown ∉ out ∧ (queuedSuffixes out).flatten = total

theorem keeps_running (total : List Byte) : Keeps (Running total) total where
  frees out freed frees kept := by
    constructor
    · intro member
      rcases List.mem_append.mp member with old | new
      · exact kept.1 old
      · obtain ⟨pointer, same⟩ := frees _ new
        cases same
    · have only : ∀ event ∈ freed, aside event = true := frees_aside frees
      rw [queuedSuffixes_append, queuedSuffixes_aside only, List.append_nil]
      exact kept.2
  offers out chunks reply kept _ := by
    constructor
    · intro member
      rcases List.mem_append.mp member with old | new
      · exact kept.1 old
      · cases List.mem_singleton.mp new
    · rw [queuedSuffixes_append, ← kept.2]
      simp [queuedSuffixes]

theorem contents_setFlags {α : Type} (list : PoolList α) (address : Nat) (flags : BitVec 32) :
    contents (list.setFlags address flags) = contents list :=
  (modify_field list address PoolNode.content _).trans (Function.update_eq_self address (contents list))

theorem Offering.stored {good : List SocketEvent → Prop} {total : List Byte} {base : ApeSocket} {called : World}
    {plist : PoolList Packet} {taken : Nat} (offering : Offering good total base called plist pending taken) (job : Nat) :
    (storeList called job plist).socket.jobs = base.jobs.setContent job (.data plist) := by
  obtain ⟨bytes, socket⟩ := offering.socket
  simp only [storeList, socket]

section Again

variable {called : World} {plist : PoolList Packet} {more : List (List Byte)}

/-- The job was worked on, and its list holds what was not flushed. -/
theorem open_again (opened : Open world pending)
    (offering : Offering (Running (queuedSuffixes world.out).flatten) (queuedSuffixes world.out).flatten world.socket called
      plist more 0) {rest : List Nat} (shape : Shape next.socket.jobs (0 :: rest))
    (current : next.socket.jobs.current = some 0)
    (flags : flagsOf next.socket.jobs =
      Function.update (flagsOf world.socket.jobs) 0 (if more = [] then emptyFlags else activeFlags))
    (content : contents next.socket.jobs = Function.update (contents world.socket.jobs) 0 (.data plist))
    (state : next.socket.state = called.socket.state) (blocked : next.socket.wouldBlock = true → more ≠ [])
    (out : next.out = called.out) : Open next more := by
  obtain ⟨bytes, socket⟩ := offering.socket
  obtain ⟨running, queued⟩ := offering.good
  refine { online := ?_, head := shape.chain.1, current, shape := ⟨rest, shape⟩, others := ?_, holds := .inr ⟨plist, ?_, ?_⟩,
           flags := .inr ?_, blocked, total := ?_, running := ?_ }
  · rw [state, socket]
    exact opened.online
  · intro slot differ
    rw [flags, content, Function.update_of_ne differ, Function.update_of_ne differ]
    exact opened.others slot differ
  · exact (congrFun content 0).trans (Function.update_self _ _ _)
  · exact offering.packets
  · exact (congrFun flags 0).trans (Function.update_self _ _ _)
  · rw [out, queued]
    exact offering.total
  · rw [out]
    exact running

theorem open_blocked (opened : Open world pending) (active : (world.socket.jobs.node 0).flags = activeFlags)
    (offering : Offering (Running (queuedSuffixes world.out).flatten) (queuedSuffixes world.out).flatten world.socket called
      plist more 0) (some_more : more ≠ []) :
    Open { storeList called 0 plist with socket := { (storeList called 0 plist).socket with wouldBlock := true } } more := by
  obtain ⟨rest, shape⟩ := opened.shape
  have jobs := offering.stored 0
  apply @open_again world _ pending called plist more opened offering rest
  · rw [jobs]
    exact shape_setContent shape 0 _
  · rw [jobs]
    exact opened.current
  · rw [jobs, flagsOf_setContent, if_neg some_more, ← active]
    exact (Function.update_eq_self 0 (flagsOf world.socket.jobs)).symm
  · rw [jobs, contents_setContent]
  · rfl
  · exact fun _ => some_more
  · rfl

theorem open_finishes (opened : Open world pending) (active : (world.socket.jobs.node 0).flags = activeFlags)
    (ready : world.socket.wouldBlock = false) :
    Finishes (Running (queuedSuffixes world.out).flatten) (queuedSuffixes world.out).flatten world.socket 0 0
      fun last => last.label = .job ∧ Open last.world [] := by
  intro called plist offering
  obtain ⟨rest, shape⟩ := opened.shape
  have jobs := offering.stored 0
  let moved := released (storeList called 0 plist).socket.jobs 0
  have slots : moved = released (world.socket.jobs.setContent 0 (.data plist)) 0 := congrArg (released · 0) jobs
  have same : moved.head = moved.current := by
    rw [slots]
    exact opened.head.trans opened.current.symm
  refine ⟨{ world := { storeList called 0 plist with socket := { (storeList called 0 plist).socket with jobs := moved } },
            njobsdone := 1 }, ?_, rfl, ?_⟩
  · have stays : apePoolHeadToCurrent moved = .ok (moved, moved.head) := by rw [apePoolHeadToCurrent, if_pos same]
    exact finishJob_ok stays
  · obtain ⟨bytes, socket⟩ := offering.socket
    apply @open_again world _ pending called plist [] opened offering rest
    · show Shape moved _
      rw [slots]
      exact shape_setFlags (shape_setContent shape 0 _) 0 _
    · show moved.current = _
      rw [slots]
      exact opened.current
    · show flagsOf moved = _
      rw [slots, released, flagsOf_setFlags, flagsOf_setContent, show flagsOf world.socket.jobs 0 = _ from active, if_pos rfl]
      rfl
    · show contents moved = _
      rw [slots, released, contents_setFlags, contents_setContent]
    · rfl
    · intro blocked
      have kept : called.socket.wouldBlock = true := blocked
      rw [socket] at kept
      cases ready.symm.trans kept
    · rfl

end Again

theorem open_jobs (some_chunks : 0 < maxChunks) (opened : Open world pending) :
    Leads (world.performLoop kernel maxChunks fuel .jobs) fun next => ∃ more, Open next more := by
  by_cases ready : world.socket.state = .online ∧ world.socket.wouldBlock = false
  · rw [World.performLoop, if_pos ready]
    apply leads_outcome
    intro outcome returned
    rcases opened.flags.busy opened.holds with ⟨none, inactive⟩ | ⟨some_pending, flags, plist, content, packets⟩
    · have idle : doJobsTurn kernel maxChunks { world } = .done (.ok (world, 0)) := jobTurn_idle opened.head inactive
      cases fuel with
      | zero => cases returned
      | succ fuel =>
        rw [apeSocketDoJobs, loop_done idle] at returned
        cases returned
        exact ⟨world, 0, rfl, fun _ => ⟨pending, opened⟩⟩
    · have starts : doJobsTurn kernel maxChunks { world } =
          .again { world, label := .rewrite 0 plist (pending.take maxChunks) } :=
        jobTurn_starts opened.head flags content packets
      have offering : Offering (Running (queuedSuffixes world.out).flatten) (queuedSuffixes world.out).flatten world.socket
          world plist pending 0 :=
        { socket := ⟨world.socket.currentBufferMemoryBytes, rfl⟩, packets, inside := Nat.zero_le _, total := opened.total,
          good := ⟨opened.running, rfl⟩ }
      cases fuel with
      | zero => cases returned
      | succ fuel =>
        rw [apeSocketDoJobs, loop_again starts] at returned
        have during : During maxChunks (Running (queuedSuffixes world.out).flatten) (queuedSuffixes world.out).flatten
            world.socket 0 0 { world, label := .rewrite 0 plist (pending.take maxChunks) } :=
          ⟨rfl, rfl, pending, offering, some_pending, rfl⟩
        rcases offering_loop (keeps_running _) some_chunks (open_finishes opened flags ready.2) during returned with
          ⟨next, ret, rfl, error | ⟨called, list, more, left, some_more, rfl⟩⟩ | ⟨last, left, ⟨label, still⟩, rest⟩
        · exact ⟨next, ret, rfl, fun calm => (calm_error calm error).elim⟩
        · exact ⟨_, ret, rfl, fun _ => ⟨more, open_blocked opened flags left some_more⟩⟩
        · rcases last with ⟨last, done, here⟩
          cases label
          rcases still.flags.busy still.holds with ⟨-, inactive⟩ | ⟨more, -⟩
          · have idle : doJobsTurn kernel maxChunks { world := last, njobsdone := done } = .done (.ok (last, done)) :=
              jobTurn_idle still.head inactive
            cases left with
            | zero => cases rest
            | succ left =>
              rw [loop_done idle] at rest
              cases rest
              exact ⟨last, done, rfl, fun _ => ⟨[], still⟩⟩
          · exact absurd rfl more
  · rw [World.performLoop, if_neg ready]
    exact .inr ⟨world, rfl, fun _ => ⟨pending, opened⟩⟩

end Open

end ZapeProof
