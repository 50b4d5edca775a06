import Zape.Ape.Serving

/-! What becomes of the packet lists when a socket is freed that was only written to and flushed. -/
namespace ZapeProof

open Machine ZapeModel

/-- A slot of the job list that points to a packet list. -/
def HasList (jobs : PoolList Job) (slot : Nat) : Prop := slot ∈ addresses jobs ∧ ∃ plist, contents jobs slot = .data plist

/-- At some point of the run the slot had been given a packet list. -/
def Listed (kernel : Kernel) (maxChunks fuel : Nat) (start : World) (calls : List BufferCall) (slot : Nat) : Prop :=
  ∃ before after world, calls = before ++ after ∧
    runAll (World.performBuffer kernel maxChunks fuel) start before = .ok world ∧ HasList world.socket.jobs slot

/-- A write, or what the event loop does to flush. -/
def flows : BufferCall → Bool
  | .loop (.write _ _) | .loop .writable | .loop .jobs => true
  | .loop .shutdown | .shutdownNow => false

/-- There is one job, and it has a list exactly if something was queued. -/
def Sole (desk : Desk) : Prop :=
  ∃ duty, desk.used = [(0, duty)] ∧ duty ≠ .shutdown ∧ (duty.listed = true ↔ queuedSuffixes desk.out ≠ [])

section Desks

variable {first second : Desk} {call : BufferCall} {write : Nat} {dataType : DataAutorelease}

theorem sole_chores (chores : Chores first second) (sole : Sole first) : Sole second := by
  induction chores with
  | refl => exact sole
  | @tail middle last earlier chore kept =>
    have same : queuedSuffixes last.out = queuedSuffixes middle.out := chores_queued (.single chore)
    obtain ⟨duty, used, data, listed⟩ := kept
    rw [← same] at listed
    cases chore with
    | log events quiet => exact ⟨duty, used, data, listed⟩
    | @consume out job rest stock more freed consumed =>
      obtain ⟨⟨rfl, rfl⟩, rfl⟩ := List.cons.inj used |>.imp Prod.mk.inj id
      exact ⟨.data more, rfl, by simp, listed⟩
    | @finish out job rest =>
      obtain ⟨⟨rfl, rfl⟩, rfl⟩ := List.cons.inj used |>.imp Prod.mk.inj id
      exact ⟨.idle true, rfl, by simp, listed⟩

theorem sole_lends (lends : Lends write dataType first second) (sole : Sole first) : Sole second := by
  obtain ⟨duty, used, data, listed⟩ := sole
  cases lends with
  | returned =>
    refine ⟨duty, used, data, ?_⟩
    rw [queuedSuffixes_append, queuedSuffixes_aside (release_aside _ _), List.append_nil]
    exact listed
  | @queued out _ front slot stock suffix packet extend pointer lifetime =>
    have logged : queuedSuffixes (out ++ [.queued suffix]) ≠ [] := by simp [queuedSuffixes]
    rcases extend with ⟨before, same, -⟩ | ⟨same, -, before, other, shut⟩
    · obtain ⟨rfl, here⟩ := List.append_inj' (show front ++ [(slot, before)] = [] ++ [(0, duty)] from same.symm.trans used) rfl
      cases here
      exact ⟨_, rfl, by simp, by simpa [Duty.listed] using logged⟩
    · obtain ⟨-, here⟩ := List.append_inj' (show before ++ [(other, Duty.shutdown)] = [] ++ [(0, duty)] from
        shut.symm.trans (same.symm.trans used)) rfl
      cases here
      exact absurd rfl data

theorem sole_deals (deals : Deals write call first second) (only : flows call = true) (sole : Sole first) : Sole second := by
  cases deals with
  | chores _ chores => exact sole_chores chores sole
  | asks => cases only
  | lends before lent after => exact sole_chores after (sole_lends lent (sole_chores before sole))

theorem deals_queued (deals : Deals write call first second) :
    ∃ more, queuedSuffixes second.out = queuedSuffixes first.out ++ more := by
  cases deals with
  | chores _ chores => exact ⟨[], by rw [chores_queued chores, List.append_nil]⟩
  | asks => exact ⟨[], by rw [List.append_nil]⟩
  | lends before lent after =>
    rw [chores_queued after, ← chores_queued before]
    cases lent with
    | returned => exact ⟨_, queuedSuffixes_append _ _⟩
    | queued => exact ⟨_, queuedSuffixes_append _ _⟩

end Desks

section Runs

variable {kernel : Kernel} {maxChunks fuel : Nat} {start world next : World} {calls : List BufferCall}

/-- What a run of writes and flushes comes to, and that it went on from a log. -/
structure Flowing (log : List SocketEvent) (world : World) (used : List (Nat × Duty)) (unused : List Nat) : Prop where
  tidy : Tidy world used unused
  sole : Sole ⟨world.out, used⟩
  log : ∃ more, queuedSuffixes world.out = queuedSuffixes log ++ more

theorem run_flowing {log : List SocketEvent} {used : List (Nat × Duty)} {unused : List Nat} (some_chunks : 0 < maxChunks)
    (flowing : Flowing log world used unused) (only : ∀ call ∈ calls, flows call = true)
    (reached : runAll (World.performBuffer kernel maxChunks fuel) world calls = .ok next) :
    ∃ later left, Flowing log next later left := by
  induction calls generalizing world used unused with
  | nil =>
    cases reached
    exact ⟨used, unused, flowing⟩
  | cons call calls ih =>
    obtain ⟨middle, stepped, rest⟩ := runAll_first reached
    rcases @call_deals kernel maxChunks fuel world used unused some_chunks flowing.tidy call with
      endless | ⟨other, later, left, performed, -, tidy, deals⟩
    · cases stepped.symm.trans endless
    · cases stepped.symm.trans performed
      obtain ⟨before, logged⟩ := flowing.log
      obtain ⟨more, grown⟩ := deals_queued deals
      have kept : Flowing log middle later left :=
        { tidy, sole := sole_deals deals (only call (by simp)) flowing.sole,
          log := ⟨before ++ more, by rw [grown, logged, List.append_assoc]⟩ }
      exact ih kept (fun other member => only other (List.mem_cons_of_mem call member)) rest

theorem flowing_plain (state : SocketState) (maxBufferMemoryMb totalMemoryBuffered : SizeT) :
    Flowing [] (plainSocket state maxBufferMemoryMb totalMemoryBuffered) [(0, .idle false)] [1] where
  tidy := tidy_plain state maxBufferMemoryMb totalMemoryBuffered
  sole := ⟨.idle false, rfl, by simp, by simp [Duty.listed, queuedSuffixes, plainSocket]⟩
  log := ⟨[], rfl⟩

theorem serves_listed {flags : BitVec 32} {content : Job} {duty : Duty} (serves : Serves flags content duty) :
    duty.listed = true ↔ ∃ plist, content = .data plist := by
  cases duty with
  | idle listed =>
    rcases serves.2.2 with ⟨rfl, rfl⟩ | ⟨rfl, plist, rfl, -⟩
    · simp [Duty.listed]
    · simp [Duty.listed]
  | data stock =>
    obtain ⟨-, -, plist, pending, rfl, -⟩ := serves
    simp [Duty.listed]
  | shutdown =>
    rw [serves.2.2]
    simp [Duty.listed]

/-- Only the first slot can have a list, and it has one once something was queued. -/
theorem flowing_list {log : List SocketEvent} {used : List (Nat × Duty)} {unused : List Nat}
    (flowing : Flowing log world used unused) (slot : Nat) :
    HasList world.socket.jobs slot ↔ slot = 0 ∧ queuedSuffixes world.out ≠ [] := by
  obtain ⟨duty, rfl, -, listed⟩ := flowing.sole
  have staffed := flowing.tidy.staffed
  have first := serves_listed (staffed.serves (0, duty) (by simp))
  rw [HasList, shape_addresses staffed.shape, List.map_singleton, List.singleton_append, List.mem_cons, ← listed, first]
  constructor
  · rintro ⟨rfl | later, plist, content⟩
    · exact ⟨rfl, plist, content⟩
    · cases (staffed.fresh slot later).2.2.symm.trans content
  · rintro ⟨rfl, content⟩
    exact ⟨.inl rfl, content⟩

/-- The lists that were created are destroyed with the socket if nothing was ever queued on it, and else exactly if
    something is still queued. -/
theorem lists_destroyed_iff (kernel : Kernel) {maxChunks : Nat} (some_chunks : 0 < maxChunks) (fuel : Nat)
    (state : SocketState) (maxBufferMemoryMb totalMemoryBuffered : SizeT) (calls : List BufferCall)
    (only : ∀ call ∈ calls, flows call = true) (world : World)
    (reached : runAll (World.performBuffer kernel maxChunks fuel) (plainSocket state maxBufferMemoryMb totalMemoryBuffered)
      calls = .ok world) :
    ∃ freeing, world.apeSocketFree = .ok freeing ∧
      ((∀ slot, Listed kernel maxChunks fuel (plainSocket state maxBufferMemoryMb totalMemoryBuffered) calls slot →
          slot ∈ freeing.destroyed) ↔
        queuedSuffixes world.out = [] ∨ queuedPackets world.socket.jobs ≠ []) := by
  have starts := flowing_plain state maxBufferMemoryMb totalMemoryBuffered
  obtain ⟨used, unused, flowing⟩ := run_flowing some_chunks starts only reached
  obtain ⟨duty, rfl, data, listed⟩ := flowing.sole
  have staffed := flowing.tidy.staffed
  have serves := staffed.serves (0, duty) (by simp)
  refine ⟨_, free_staffed staffed, ?_⟩
  rw [staffed_packets staffed, show stockpile [(0, duty)] = duty.stock from List.flatMap_singleton _ _]
  constructor
  · intro all
    by_cases none : queuedSuffixes world.out = []
    · exact .inl none
    · have destroyed : 0 ∈ dismissed [(0, duty)] :=
        all 0 ⟨calls, [], world, by rw [List.append_nil], reached, (flowing_list flowing 0).mpr ⟨rfl, none⟩⟩
      cases duty with
      | idle listed => simp [dismissed, Duty.isData] at destroyed
      | data stock =>
        obtain ⟨-, -, plist, pending, -, stocked, some_pending⟩ := serves
        refine .inr ?_
        rintro rfl
        exact some_pending (stocked_nil stocked)
      | shutdown => exact absurd rfl data
  · rintro kept slot ⟨before, after, between, rfl, middle, has⟩
    obtain ⟨now, left, earlier⟩ := run_flowing some_chunks starts
      (fun call member => only call (List.mem_append_left after member)) middle
    obtain ⟨rfl, queued⟩ := (flowing_list earlier slot).mp has
    rcases kept with none | some_stock
    · -- what was queued by then is still in the log
      obtain ⟨later, rest, whole⟩ := run_flowing some_chunks
        { tidy := earlier.tidy, sole := earlier.sole, log := ⟨[], (List.append_nil _).symm⟩ }
        (fun call member => only call (List.mem_append_right before member))
        (show runAll (World.performBuffer kernel maxChunks fuel) between after = .ok world by
          rw [runAll_append, middle] at reached
          exact reached)
      obtain ⟨more, grown⟩ := whole.log
      rw [none] at grown
      exact absurd (List.append_eq_nil_iff.mp grown.symm).1 queued
    · cases duty with
      | idle listed => exact absurd rfl some_stock
      | data stock => exact List.mem_singleton.mpr rfl
      | shutdown => exact absurd rfl some_stock

end Runs

/-- Two bytes that would block are queued, and then flushed. -/
def flushedBytes : List BufferCall := [.loop (.write twoBytes .static), .loop .writable, .loop .jobs]

theorem flushed_list_leaks :
    ∃ world freeing, runAll (World.performBuffer hesitant 1024 8) (plainSocket .online 0 0) flushedBytes = .ok world ∧
      world.apeSocketFree = .ok freeing ∧ Listed hesitant 1024 8 (plainSocket .online 0 0) flushedBytes 0 ∧
      0 ∉ freeing.destroyed :=
  ⟨_, _, rfl, rfl, ⟨flushedBytes, [], _, rfl, rfl, by decide, _, rfl⟩, by decide⟩

/-- What is still queued when the socket is freed goes with its list. -/
theorem blocked_list_destroyed :
    ∃ world freeing, runAll (World.performBuffer hesitant 1024 8) (plainSocket .online 0 0)
        [.loop (.write twoBytes .static)] = .ok world ∧
      world.apeSocketFree = .ok freeing ∧ ∀ slot,
        Listed hesitant 1024 8 (plainSocket .online 0 0) [.loop (.write twoBytes .static)] slot → slot ∈ freeing.destroyed := by
  obtain ⟨world, reached⟩ : ∃ world, runAll (World.performBuffer hesitant 1024 8) (plainSocket .online 0 0)
      [.loop (.write twoBytes .static)] = .ok world := ⟨_, rfl⟩
  obtain ⟨freeing, freed, destroyed⟩ := @lists_destroyed_iff hesitant 1024 (by decide) 8 .online 0 0
    [.loop (.write twoBytes .static)] (by decide) world reached
  refine ⟨world, freeing, reached, freed, destroyed.mpr (.inr ?_)⟩
  cases reached
  decide

end ZapeProof
