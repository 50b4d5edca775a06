import Zape.Ape.Serving

/-! Who owns the buffers that are written to a socket, and when they are freed. -/
namespace ZapeProof

open Machine ZapeModel

def freedPointers (out : List SocketEvent) : List DataPointer :=
  out.filterMap fun
    | .free pointer => some pointer
    | _ => none

/-- What was freed, and what the packets that are still queued will make to be freed. -/
def obligations (out : List SocketEvent) (queued : List Packet) : List DataPointer := freedPointers (out ++ releases queued)

/-- What the packet points to was not written over, nor given back: a copy, or a buffer that lives on. -/
def Backed (lifetimes : List DataAutorelease) (packet : Packet) : Prop :=
  (∃ write, packet.pointer = .copy write ∧ packet.dataType = .copy) ∨
    ∃ write lifetime, packet.pointer = .caller write ∧ lifetimes[write]? = some lifetime ∧ packet.dataType = lifetime ∧
      lifetime ≠ .static ∧ lifetime ≠ .copy

/-- Every buffer that the socket has to free is freed, or waits to be, once; those of `base` are among them. -/
structure Accounts (lifetimes : List DataAutorelease) (base : List DataPointer) (out : List SocketEvent)
    (queued : List Packet) : Prop where
  once : (obligations out queued).Nodup
  callers : ∀ write, .caller write ∈ obligations out queued ↔ lifetimes[write]? = some .autorelease
  copies : ∀ write, .copy write ∈ obligations out queued → write < lifetimes.length
  backed : ∀ packet ∈ queued, Backed lifetimes packet
  base : base ⊆ obligations out queued

section Ledger

variable {lifetimes : List DataAutorelease} {base : List DataPointer} {out : List SocketEvent} {queued : List Packet}

@[simp] theorem freedPointers_append (left right : List SocketEvent) :
    freedPointers (left ++ right) = freedPointers left ++ freedPointers right := List.filterMap_append

theorem obligations_append (left right : List SocketEvent) (queued : List Packet) :
    obligations (left ++ right) queued = freedPointers left ++ obligations right queued := by
  rw [obligations, obligations, List.append_assoc, freedPointers_append]

theorem Backed.more {packet : Packet} (backed : Backed lifetimes packet) (lifetime : DataAutorelease) :
    Backed (lifetimes ++ [lifetime]) packet := by
  rcases backed with copy | ⟨write, before, caller, written, rest⟩
  · exact .inl copy
  · have inside : write < lifetimes.length := (List.getElem?_eq_some_iff.mp written).1
    exact .inr ⟨write, before, caller, (List.getElem?_append_left inside).trans written, rest⟩

theorem Accounts.nothing : Accounts [] [] [] [] where
  once := by simp [obligations, freedPointers, releases]
  callers := by simp [obligations, freedPointers, releases]
  copies := by simp [obligations, freedPointers, releases]
  backed := by simp
  base := List.nil_subset _

/-- The same obligations with another log and other packets. -/
theorem Accounts.congr (accounts : Accounts lifetimes base out queued) {later : List SocketEvent} {left : List Packet}
    (same : obligations later left = obligations out queued) (backed : ∀ packet ∈ left, Backed lifetimes packet) :
    Accounts lifetimes base later left :=
  { once := same ▸ accounts.once, callers := same ▸ accounts.callers, copies := same ▸ accounts.copies, backed,
    base := same ▸ accounts.base }

theorem Accounts.weaken (accounts : Accounts lifetimes base out queued) {fewer : List DataPointer} (within : fewer ⊆ base) :
    Accounts lifetimes fewer out queued :=
  { once := accounts.once, callers := accounts.callers, copies := accounts.copies, backed := accounts.backed,
    base := fun _ member => accounts.base (within member) }

theorem accounts_log (accounts : Accounts lifetimes base out queued) {events : List SocketEvent}
    (quiet : freedPointers events = []) : Accounts lifetimes base (out ++ events) queued := by
  refine accounts.congr ?_ accounts.backed
  rw [obligations_append, obligations, obligations, freedPointers_append, freedPointers_append, quiet, List.nil_append]

theorem accounts_consumed {stock left more : List Packet} {freed : List SocketEvent}
    (accounts : Accounts lifetimes base out (stock ++ more)) (consumed : Consumed stock left freed) :
    Accounts lifetimes base (out ++ freed) (left ++ more) := by
  obtain ⟨first, others, rfl, ⟨offset, rfl, rfl⟩ | ⟨rfl, rfl⟩⟩ := consumed
  · refine accounts.congr ?_ ?_
    · rw [List.append_nil]
      rfl
    · intro packet member
      rcases List.mem_cons.mp member with rfl | later
      · exact accounts.backed first (by simp)
      · exact accounts.backed packet (List.mem_cons_of_mem first later)
  · refine accounts.congr ?_ fun packet member => accounts.backed packet (List.mem_cons_of_mem first member)
    rw [List.cons_append, obligations, obligations, releases_cons, List.append_assoc]

/-- Another buffer, and what has to be freed for it. -/
theorem Accounts.extend (accounts : Accounts lifetimes base out queued) {lifetime : DataAutorelease}
    {later : List SocketEvent} {more : List Packet} {pointers : List DataPointer}
    (grown : (obligations later more).Perm (obligations out queued ++ pointers)) (nodup : pointers.Nodup)
    (caller : ∀ write, .caller write ∈ pointers ↔ write = lifetimes.length ∧ lifetime = .autorelease)
    (copy : ∀ write, .copy write ∈ pointers → write = lifetimes.length)
    (backed : ∀ packet ∈ more, Backed (lifetimes ++ [lifetime]) packet) :
    Accounts (lifetimes ++ [lifetime]) (base ++ pointers) later more where
  once := by
    refine grown.nodup_iff.mpr (List.nodup_append.mpr ⟨accounts.once, nodup, ?_⟩)
    rintro pointer before _ new rfl
    cases pointer with
    | caller write =>
      obtain ⟨rfl, -⟩ := (caller write).mp new
      have written := (accounts.callers _).mp before
      simp at written
    | copy write =>
      have below := accounts.copies write before
      have this := copy write new
      omega
  callers write := by
    rw [grown.mem_iff, List.mem_append, accounts.callers, caller]
    rcases Nat.lt_trichotomy write lifetimes.length with below | rfl | above
    · rw [List.getElem?_append_left below]
      have differ : write ≠ lifetimes.length := by omega
      simp [differ]
    · simp
    · have differ : write ≠ lifetimes.length := by omega
      have beyond : lifetimes[write]? = none := List.getElem?_eq_none (by omega)
      have still : (lifetimes ++ [lifetime])[write]? = none := List.getElem?_eq_none (by simp; omega)
      simp [differ, beyond, still]
  copies write member := by
    rw [List.length_append, List.length_singleton]
    rcases List.mem_append.mp (grown.mem_iff.mp member) with before | new
    · have below := accounts.copies write before
      omega
    · have this := copy write new
      omega
  backed := backed
  base := by
    intro pointer member
    rw [grown.mem_iff, List.mem_append]
    exact (List.mem_append.mp member).imp (fun before => accounts.base before) id

/-- A buffer that was sent, or refused, without being queued. -/
theorem accounts_returned (accounts : Accounts lifetimes base out queued) (dataType : DataAutorelease) :
    Accounts (lifetimes ++ [dataType]) base
      (out ++ apeSocketReleaseData (.caller lifetimes.length) (if dataType = .copy then .own else dataType)) queued := by
  apply Accounts.weaken _ (List.subset_append_left base (if dataType = .autorelease then [.caller lifetimes.length] else []))
  refine accounts.extend ?_ ?_ ?_ ?_ fun packet member => (accounts.backed packet member).more dataType
  · have freed : freedPointers (apeSocketReleaseData (.caller lifetimes.length) (if dataType = .copy then .own else dataType)) =
        if dataType = .autorelease then [.caller lifetimes.length] else [] := by
      cases dataType <;> rfl
    rw [obligations_append, obligations, obligations, freedPointers_append, freedPointers_append, freed, List.append_assoc]
    exact List.perm_append_comm.append_left _
  · split <;> simp
  · intro write
    split <;> simp_all
  · intro write
    split <;> simp

/-- The private copy that `ape_socket_queue_data` makes. -/
def copyOf (dataType : DataAutorelease) (write : Nat) : List DataPointer :=
  if dataType = .static ∨ dataType = .copy then [.copy write] else []

theorem accounts_queued (accounts : Accounts lifetimes base out queued) {dataType : DataAutorelease} {packet : Packet}
    (pointer : packet.pointer = if dataType = .static ∨ dataType = .copy then
      .copy lifetimes.length else .caller lifetimes.length)
    (lifetime : packet.dataType = if dataType = .static then .copy else dataType) :
    Accounts (lifetimes ++ [dataType]) (base ++ copyOf dataType lifetimes.length) out (queued ++ [packet]) := by
  have copied : copyOf dataType lifetimes.length ⊆ freedPointers (apeSocketReleaseData packet.pointer packet.dataType) := by
    rw [pointer, lifetime]
    cases dataType <;> simp [copyOf, apeSocketReleaseData, freedPointers]
  apply Accounts.weaken _
    (List.append_subset.mpr ⟨List.subset_append_left base _, List.subset_append_of_subset_right base copied⟩)
  refine accounts.extend ?_ ?_ ?_ ?_ ?_
  · have last : releases [packet] = apeSocketReleaseData packet.pointer packet.dataType := List.flatMap_singleton _ _
    rw [obligations, obligations, releases_append, last, ← List.append_assoc, freedPointers_append]
  · rw [pointer, lifetime]
    cases dataType <;> simp [apeSocketReleaseData, freedPointers]
  · intro write
    rw [pointer, lifetime]
    cases dataType <;> simp [apeSocketReleaseData, freedPointers]
  · intro write
    rw [pointer, lifetime]
    cases dataType <;> simp [apeSocketReleaseData, freedPointers]
  · intro other member
    rcases List.mem_append.mp member with before | last
    · exact (accounts.backed other before).more dataType
    · cases List.mem_singleton.mp last
      have here : (lifetimes ++ [dataType])[lifetimes.length]? = some dataType := by simp
      cases dataType with
      | static | copy => exact .inl ⟨lifetimes.length, pointer, lifetime⟩
      | globalStatic => exact .inr ⟨lifetimes.length, .globalStatic, pointer, here, lifetime, by decide, by decide⟩
      | autorelease => exact .inr ⟨lifetimes.length, .autorelease, pointer, here, lifetime, by decide, by decide⟩
      | own => exact .inr ⟨lifetimes.length, .own, pointer, here, lifetime, by decide, by decide⟩

/-- No packet that is queued leads to memory that was freed, or that the caller only lent for the call. -/
def Guarded (lifetimes : List DataAutorelease) (out : List SocketEvent) (queued : List Packet) : Prop :=
  ∀ packet ∈ queued, .free packet.pointer ∉ out ∧ ∀ write, packet.pointer = .caller write →
    lifetimes[write]? ≠ some .static ∧ lifetimes[write]? ≠ some .copy

theorem mem_freedPointers {pointer : DataPointer} : pointer ∈ freedPointers out ↔ .free pointer ∈ out := by
  rw [freedPointers, List.mem_filterMap]
  constructor
  · rintro ⟨event, member, freed⟩
    cases event with
    | free other =>
      cases freed
      exact member
    | _ => cases freed
  · exact fun member => ⟨_, member, rfl⟩

theorem count_freedPointers (out : List SocketEvent) (pointer : DataPointer) :
    (freedPointers out).count pointer = out.count (.free pointer) := by
  induction out with
  | nil => rfl
  | cons event out ih =>
    cases event with
    | free other =>
      have first : freedPointers (.free other :: out) = other :: freedPointers out := rfl
      rw [first, List.count_cons, List.count_cons, ih]
      simp
    | write _ _ _ | writev _ _ | queued _ | sendfile _ _ | sslWrite _ _ | closeFile _ | shutdown | destroy =>
      rw [List.count_cons_of_ne (by simp), ← ih]
      rfl

theorem accounts_guarded (accounts : Accounts lifetimes base out queued) : Guarded lifetimes out queued := by
  intro packet member
  have owed : freedPointers (apeSocketReleaseData packet.pointer packet.dataType) ⊆ freedPointers (releases queued) := by
    intro pointer freed
    rw [mem_freedPointers] at freed ⊢
    exact List.mem_flatMap.mpr ⟨packet, member, freed⟩
  have apart : ∀ pointer ∈ freedPointers (releases queued), .free pointer ∉ out := by
    intro pointer later freed
    have once := accounts.once
    rw [obligations, freedPointers_append, List.nodup_append] at once
    exact once.2.2 pointer (mem_freedPointers.mpr freed) pointer later rfl
  rcases accounts.backed packet member with ⟨write, copy, type⟩ | ⟨write, lifetime, caller, written, type, static, copied⟩
  · rw [copy]
    refine ⟨apart _ (owed ?_), by simp⟩
    rw [copy, type]
    exact List.mem_singleton.mpr rfl
  · rw [caller]
    refine ⟨fun freed => ?_, ?_⟩
    · have autorelease := (accounts.callers write).mp (by
        rw [obligations, freedPointers_append]
        exact List.mem_append_left _ (mem_freedPointers.mpr freed))
      rw [written] at autorelease
      cases autorelease
      refine apart _ (owed ?_) freed
      rw [caller, type]
      exact List.mem_singleton.mpr rfl
    · rintro other ⟨⟩
      rw [written]
      simp [static, copied]

end Ledger

section Steps

variable {lifetimes : List DataAutorelease} {base : List DataPointer} {first second : Desk} {dataType : DataAutorelease}

theorem plain_freed {events : List SocketEvent} (quiet : ∀ event ∈ events, plain event = true) : freedPointers events = [] := by
  rw [freedPointers, List.filterMap_eq_nil_iff]
  intro event member
  have this := quiet event member
  cases event <;> first | rfl | cases this

theorem accounts_chores (chores : Chores first second) (accounts : Accounts lifetimes base first.out (stockpile first.used)) :
    Accounts lifetimes base second.out (stockpile second.used) := by
  induction chores with
  | refl => exact accounts
  | tail _ chore kept =>
    cases chore with
    | log events quiet => exact accounts_log kept (plain_freed quiet)
    | consume consumed => exact accounts_consumed kept consumed
    | @finish out job rest =>
      have same : stockpile (rest ++ [(job, .idle true)]) = stockpile ((job, .data []) :: rest) := by
        simp [stockpile, Duty.stock]
      exact same ▸ kept

/-- A buffer is owed from the call on that it was given to; where it was queued, this goes for the copy of it too. -/
theorem accounts_lends (lends : Lends lifetimes.length dataType first second)
    (accounts : Accounts lifetimes base first.out (stockpile first.used)) :
    Accounts (lifetimes ++ [dataType]) base second.out (stockpile second.used) ∧
      (queuedSuffixes second.out ≠ queuedSuffixes first.out →
        Accounts (lifetimes ++ [dataType]) (base ++ copyOf dataType lifetimes.length) second.out (stockpile second.used)) := by
  cases lends with
  | returned =>
    refine ⟨accounts_returned accounts dataType, fun queued => absurd ?_ queued⟩
    rw [queuedSuffixes_append, queuedSuffixes_aside (release_aside _ _), List.append_nil]
  | @queued out used front slot stock suffix packet extend pointer lifetime =>
    have owed := accounts_queued accounts pointer lifetime
    rw [← extend.stockpile] at owed
    have logged := accounts_log owed (show freedPointers [.queued suffix] = [] from rfl)
    exact ⟨logged.weaken (List.subset_append_left base _), fun _ => logged⟩

end Steps

/-- After these calls: what is owed is on the desk, and `base` is part of it. -/
structure Settling (base : List DataPointer) (calls : List BufferCall) (world : World) (used : List (Nat × Duty))
    (unused : List Nat) : Prop where
  tidy : Tidy world used unused
  accounts : Accounts (lifetimes calls) base world.out (stockpile used)
  handed : world.handed = (lifetimes calls).length

def Settles (base : List DataPointer) (calls : List BufferCall) (world : World) : Prop :=
  ∃ used unused, Settling base calls world used unused

section Runs

variable {kernel : Kernel} {maxChunks fuel : Nat} {world : World} {base : List DataPointer} {before : List BufferCall}

theorem lifetimes_snoc (before : List BufferCall) (call : BufferCall) :
    lifetimes (before ++ [call]) = lifetimes before ++ call.lifetime.toList := by
  rw [lifetimes, lifetimes, List.filterMap_append]
  cases lifetime : call.lifetime <;> simp [lifetime]

/-- Only a call of `APE_socket_write` can queue anything, and then it owes the copy it made. -/
theorem accounts_deals {call : BufferCall} {first second : Desk} (deals : Deals (lifetimes before).length call first second)
    (accounts : Accounts (lifetimes before) base first.out (stockpile first.used)) :
    Accounts (lifetimes (before ++ [call])) base second.out (stockpile second.used) ∧
      ∀ data dataType, call = .loop (.write data dataType) → queuedSuffixes second.out ≠ queuedSuffixes first.out →
        Accounts (lifetimes (before ++ [call])) (base ++ copyOf dataType (lifetimes before).length) second.out
          (stockpile second.used) := by
  rw [lifetimes_snoc]
  cases deals with
  | chores only chores =>
    rw [only, Option.toList_none, List.append_nil]
    refine ⟨accounts_chores chores accounts, ?_⟩
    rintro data dataType rfl
    cases only
  | @asks out used slot =>
    have same : stockpile (used ++ [(slot, .shutdown)]) = stockpile used := by simp [stockpile, Duty.stock]
    rw [show (BufferCall.loop .shutdown).lifetime.toList = [] from rfl, List.append_nil]
    exact ⟨same ▸ accounts, by simp⟩
  | @lends data dataType _ middle third _ chores lent after =>
    obtain ⟨kept, owed⟩ := accounts_lends lent (accounts_chores chores accounts)
    refine ⟨accounts_chores after kept, ?_⟩
    rintro _ _ ⟨⟩ queued
    refine accounts_chores after (owed fun same => queued ?_)
    rw [chores_queued after, same, chores_queued chores]

theorem call_settles (some_chunks : 0 < maxChunks) (settles : Settles base before world) (call : BufferCall) :
    world.performBuffer kernel maxChunks fuel call = .error .endless ∨
      ∃ next, world.performBuffer kernel maxChunks fuel call = .ok next ∧ Settles base (before ++ [call]) next ∧
        ∀ data dataType, call = .loop (.write data dataType) → queuedSuffixes next.out ≠ queuedSuffixes world.out →
          Settles (base ++ copyOf dataType (lifetimes before).length) (before ++ [call]) next := by
  obtain ⟨used, unused, settling⟩ := settles
  rcases @call_deals kernel maxChunks fuel world used unused some_chunks settling.tidy call with
    endless | ⟨next, later, left, performed, count, tidy, deals⟩
  · exact .inl endless
  · have handed : next.handed = (lifetimes (before ++ [call])).length := by
      rw [count, settling.handed, lifetimes_snoc, List.length_append]
    rw [settling.handed] at deals
    obtain ⟨accounts, owed⟩ := accounts_deals deals settling.accounts
    exact .inr ⟨next, performed, ⟨later, left, { tidy, handed, accounts }⟩, fun data dataType same queued =>
      ⟨later, left, { tidy, handed, accounts := owed data dataType same queued }⟩⟩

theorem run_cases (some_chunks : 0 < maxChunks) (settles : Settles base before world) (calls : List BufferCall) :
    runAll (World.performBuffer kernel maxChunks fuel) world calls = .error .endless ∨
      ∃ next, runAll (World.performBuffer kernel maxChunks fuel) world calls = .ok next ∧
        Settles base (before ++ calls) next := by
  induction calls generalizing world before with
  | nil => exact .inr ⟨world, rfl, by rwa [List.append_nil]⟩
  | cons call calls ih =>
    rcases @call_settles kernel maxChunks fuel world base before some_chunks settles call with
      endless | ⟨next, stepped, kept, -⟩
    · exact .inl (by rw [runAll, endless])
    · have later := ih kept
      rw [List.append_assoc, List.singleton_append] at later
      simp only [runAll, stepped]
      exact later

theorem run_settles (some_chunks : 0 < maxChunks) (settles : Settles base before world) {calls : List BufferCall}
    {next : World} (reached : runAll (World.performBuffer kernel maxChunks fuel) world calls = .ok next) :
    Settles base (before ++ calls) next := by
  rcases @run_cases kernel maxChunks fuel world base before some_chunks settles calls with endless | ⟨last, same, kept⟩
  · rw [endless] at reached
    cases reached
  · rw [reached] at same
    cases same
    exact kept

theorem settles_plain (state : SocketState) (maxBufferMemoryMb totalMemoryBuffered : SizeT) :
    Settles [] [] (plainSocket state maxBufferMemoryMb totalMemoryBuffered) :=
  ⟨_, _, { tidy := tidy_plain state maxBufferMemoryMb totalMemoryBuffered, accounts := .nothing, handed := rfl }⟩

/-- Freeing the socket settles all that is owed. -/
theorem settles_free (settles : Settles base before world) :
    ∃ freeing, world.apeSocketFree = .ok freeing ∧
      (∀ write, freeing.world.out.count (.free (.caller write)) =
        if (lifetimes before)[write]? = some .autorelease then 1 else 0) ∧
      (∀ write, freeing.world.out.count (.free (.copy write)) ≤ 1) ∧
      ∀ pointer ∈ base, freeing.world.out.count (.free pointer) = 1 := by
  obtain ⟨used, unused, settling⟩ := settles
  have freed := free_staffed settling.tidy.staffed
  have accounts := settling.accounts
  have counted : ∀ pointer, (cleaned world (stockpile used)).out.count (.free pointer) =
      (obligations world.out (stockpile used)).count pointer := fun pointer => (count_freedPointers _ pointer).symm
  refine ⟨_, freed, fun write => ?_, fun write => ?_, fun pointer member => ?_⟩
  · rw [counted]
    by_cases autorelease : (lifetimes before)[write]? = some .autorelease
    · rw [if_pos autorelease]
      exact List.count_eq_one_of_mem accounts.once ((accounts.callers write).mpr autorelease)
    · rw [if_neg autorelease]
      exact List.count_eq_zero_of_not_mem fun member => autorelease ((accounts.callers write).mp member)
  · rw [counted]
    exact List.nodup_iff_count_le_one.mp accounts.once _
  · rw [counted]
    exact List.count_eq_one_of_mem accounts.once (accounts.base member)

theorem Settles.guarded (settles : Settles base before world) :
    Guarded (lifetimes before) world.out (queuedPackets world.socket.jobs) := by
  obtain ⟨used, unused, settling⟩ := settles
  rw [staffed_packets settling.tidy.staffed]
  exact accounts_guarded settling.accounts

theorem visits_guarded (some_chunks : 0 < maxChunks) (settles : Settles base before world)
    (ready : world.socket.state = .online ∧ world.socket.wouldBlock = false) {doing : DoingJobs}
    (visits : Visits (doJobsTurn kernel maxChunks) { world } doing) :
    Guarded (lifetimes before) doing.world.out (queuedPackets (jobsIn doing)) := by
  obtain ⟨used, unused, settling⟩ := settles
  obtain ⟨now, left, minding⟩ := visits_minds some_chunks settling.tidy ready visits
  rw [staffed_packets minding.staffed]
  exact accounts_guarded (accounts_chores minding.chores settling.accounts)

/-- A write that queued its data as a private copy. -/
def Copies (dataType : DataAutorelease) (old new : World) : Prop :=
  (dataType = .static ∨ dataType = .copy) ∧ queuedSuffixes new.out ≠ queuedSuffixes old.out

/-- Every buffer that is to be freed is freed once, when the socket is at the latest, and no queued packet leads to one
    that was freed before or that the caller only lent. -/
theorem buffers_freed_once (kernel : Kernel) {maxChunks : Nat} (some_chunks : 0 < maxChunks) (fuel : Nat)
    (state : SocketState) (maxBufferMemoryMb totalMemoryBuffered : SizeT) (calls : List BufferCall) :
    let run := runAll (World.performBuffer kernel maxChunks fuel) (plainSocket state maxBufferMemoryMb totalMemoryBuffered)
    (∀ fault, run calls ≠ .error (.fault fault)) ∧
      ∀ world, run calls = .ok world →
        Guarded (lifetimes calls) world.out (queuedPackets world.socket.jobs) ∧
          (world.socket.state = .online ∧ world.socket.wouldBlock = false →
            ∀ doing, Visits (doJobsTurn kernel maxChunks) { world } doing →
              Guarded (lifetimes calls) doing.world.out (queuedPackets (jobsIn doing))) ∧
          ∃ freeing, world.apeSocketFree = .ok freeing ∧
            (∀ write, freeing.world.out.count (.free (.caller write)) =
              if (lifetimes calls)[write]? = some .autorelease then 1 else 0) ∧
            (∀ write, freeing.world.out.count (.free (.copy write)) ≤ 1) ∧
            ∀ before data dataType after old new, calls = before ++ .loop (.write data dataType) :: after →
              run before = .ok old → run (before ++ [.loop (.write data dataType)]) = .ok new → Copies dataType old new →
              freeing.world.out.count (.free (.copy (lifetimes before).length)) = 1 := by
  intro run
  have starts := settles_plain state maxBufferMemoryMb totalMemoryBuffered
  constructor
  · intro fault stopped
    rcases @run_cases kernel maxChunks fuel _ _ _ some_chunks starts calls with endless | ⟨next, reached, -⟩
    · cases stopped.symm.trans endless
    · cases stopped.symm.trans reached
  · intro world reached
    have settles : Settles [] calls world := run_settles some_chunks starts reached
    obtain ⟨freeing, freed, callers, copies, -⟩ := settles_free settles
    refine ⟨settles.guarded, fun ready doing visits => visits_guarded some_chunks settles ready visits, freeing, freed,
      callers, copies, ?_⟩
    intro before data dataType after old new split middle written copied
    have earlier : Settles [] before old := run_settles some_chunks starts middle
    have stepped : old.performBuffer kernel maxChunks fuel (.loop (.write data dataType)) = .ok new :=
      (runAll_snoc middle).symm.trans written
    have rest : runAll (World.performBuffer kernel maxChunks fuel) new after = .ok world := by
      have whole : run ((before ++ [.loop (.write data dataType)]) ++ after) = .ok world := by
        rw [List.append_assoc, List.singleton_append, ← split]
        exact reached
      have first : runAll (World.performBuffer kernel maxChunks fuel) _ _ = .ok new := written
      simp only [run, runAll_append] at whole first
      rwa [first] at whole
    -- from the write on, its copy is among what is owed
    have owed : Settles (copyOf dataType (lifetimes before).length) (before ++ [.loop (.write data dataType)]) new := by
      rcases @call_settles kernel maxChunks fuel old [] before some_chunks earlier (.loop (.write data dataType)) with
        endless | ⟨next, same, -, owes⟩
      · cases stepped.symm.trans endless
      · cases stepped.symm.trans same
        exact owes data dataType rfl copied.2
    obtain ⟨again, same, -, -, once⟩ := settles_free (run_settles some_chunks owed rest)
    rw [freed] at same
    cases same
    apply once
    rw [copyOf, if_pos copied.1]
    exact List.mem_singleton.mpr rfl

/-- The first write would block, the second one is queued behind it, and both are flushed. -/
def lentBuffers : List BufferCall :=
  [.loop (.write twoBytes .autorelease), .loop (.write twoBytes .static), .loop .writable, .loop .jobs]

theorem lentBuffers_freed :
    ∃ world freeing, runAll (World.performBuffer hesitant 1024 12) (plainSocket .online 0 0) lentBuffers = .ok world ∧
      world.apeSocketFree = .ok freeing ∧ freeing.world.out.count (.free (.caller 0)) = 1 ∧
      freeing.world.out.count (.free (.caller 1)) = 0 ∧ freeing.world.out.count (.free (.copy 1)) = 1 := by
  obtain ⟨-, run⟩ := @buffers_freed_once hesitant 1024 (by decide) 12 .online 0 0 lentBuffers
  obtain ⟨world, reached⟩ : ∃ world,
      runAll (World.performBuffer hesitant 1024 12) (plainSocket .online 0 0) lentBuffers = .ok world := ⟨_, rfl⟩
  obtain ⟨-, -, freeing, freed, callers, -, copies⟩ := run world reached
  refine ⟨world, freeing, reached, freed, callers 0, callers 1, ?_⟩
  refine copies [.loop (.write twoBytes .autorelease)] twoBytes .static [.loop .writable, .loop .jobs] _ _ rfl rfl rfl ?_
  exact ⟨.inl rfl, by decide⟩

end Runs

end ZapeProof
