import Zape.Ape.Draining
import Mathlib.Data.Prod.Lex
import Mathlib.Order.Lattice.Nat

/-! Whole runs on a socket: the bytes sent, those still held and those queued. -/
namespace ZapeProof

open Machine ZapeModel

/-- `writev` is called, and answers from now on that it was interrupted. -/
def Stuck (kernel : Kernel) (doing : DoingJobs) : Prop :=
  ∃ job plist chunks, doing.label = .rewrite job plist chunks ∧
    ∀ more, kernel.reply (doing.world.calls + more) chunks.flatten.length = .interrupted

/-- So many calls are interrupted before one is not. -/
noncomputable def interruptions (kernel : Kernel) (calls offered : Nat) : Nat :=
  sInf { more | kernel.reply (calls + more) offered ≠ .interrupted }

def stage : JobsLabel → Nat
  | .job | .sendfile _ _ => 2
  | .rewrite _ _ _ => 1
  | .consume _ _ _ => 0

noncomputable def waits (kernel : Kernel) (doing : DoingJobs) : Nat :=
  match doing.label with
  | .rewrite _ _ chunks => interruptions kernel doing.world.calls chunks.flatten.length
  | _ => 0

/-- Gets smaller with every turn of `ape_socket_do_jobs`. -/
noncomputable def measure (kernel : Kernel) (doing : DoingJobs) : Nat ×ₗ Nat ×ₗ Nat :=
  toLex ((heldIn doing).length, toLex (stage doing.label, waits kernel doing))

section Turns

variable {kernel : Kernel} {maxChunks : Nat} {doing next : DoingJobs}

theorem interruptions_less {calls offered more : Nat} (other : kernel.reply (calls + more) offered ≠ .interrupted)
    (interrupted : kernel.reply calls offered = .interrupted) :
    interruptions kernel (calls + 1) offered < interruptions kernel calls offered := by
  have reached : kernel.reply (calls + interruptions kernel calls offered) offered ≠ .interrupted :=
    @Nat.sInf_mem { more | kernel.reply (calls + more) offered ≠ .interrupted } ⟨more, other⟩
  cases count : interruptions kernel calls offered with
  | zero =>
    rw [count] at reached
    exact absurd interrupted reached
  | succ more =>
    rw [count, ← Nat.add_assoc, Nat.add_right_comm] at reached
    exact Nat.lt_succ_of_le (Nat.sInf_le reached)

theorem measure_shorter (shorter : (heldIn next).length < (heldIn doing).length) :
    measure kernel next < measure kernel doing := Prod.Lex.toLex_lt_toLex.mpr (.inl shorter)

theorem measure_stage (same : heldIn next = heldIn doing) (later : stage next.label < stage doing.label) :
    measure kernel next < measure kernel doing :=
  Prod.Lex.toLex_lt_toLex.mpr (.inr ⟨by rw [same], Prod.Lex.toLex_lt_toLex.mpr (.inl later)⟩)

theorem measure_waits (same : heldIn next = heldIn doing) (stages : stage next.label = stage doing.label)
    (less : waits kernel next < waits kernel doing) : measure kernel next < measure kernel doing :=
  Prod.Lex.toLex_lt_toLex.mpr (.inr ⟨by rw [same], Prod.Lex.toLex_lt_toLex.mpr (.inr ⟨stages, less⟩)⟩)

theorem doJobs_turn (some_chunks : 0 < maxChunks) (during : Doing maxChunks doing) :
    (∃ next, doJobsTurn kernel maxChunks doing = .again next ∧ Doing maxChunks next ∧
        (¬ Stuck kernel doing → measure kernel next < measure kernel doing)) ∨
      ∃ next ret pending, doJobsTurn kernel maxChunks doing = .done (.ok (next, ret)) ∧ Balanced next pending := by
  rcases doing with ⟨world, njobsdone, label⟩
  cases label with
  | job =>
    obtain ⟨pending, balanced⟩ := during
    rcases @job_turn maxChunks world pending njobsdone balanced with ⟨plist, chunks, turn, sending, more, taken⟩ | ⟨-, turn⟩
    · refine .inl ⟨_, turn, ⟨rfl, pending, sending, more, taken⟩, fun _ => measure_stage ?_ Nat.one_lt_two⟩
      exact (held_packets sending.packets).trans (lists_job balanced).held.symm
    · exact .inr ⟨world, njobsdone, pending, turn, balanced⟩
  | rewrite job plist chunks =>
    obtain ⟨rfl, pending, sending, more, rfl⟩ := during
    have held : heldIn ⟨world, njobsdone, .rewrite 0 plist (pending.take maxChunks)⟩ = pending.flatten :=
      held_packets sending.packets
    rcases @rewrite_turn kernel maxChunks world plist pending njobsdone sending more some_chunks with
      ⟨next, turn, during, same, onward⟩ | stops
    · refine .inl ⟨next, turn, during, fun free => ?_⟩
      rcases onward with ⟨n, label⟩ | ⟨interrupted, calls, label⟩
      · exact measure_stage (same.trans held.symm) (by rw [label]; exact Nat.zero_lt_one)
      · apply measure_waits (same.trans held.symm) (by rw [label])
        have other : ∃ more, kernel.reply (world.calls + more) (pending.take maxChunks).flatten.length ≠ .interrupted := by
          apply not_forall.mp
          intro always
          exact free ⟨0, plist, pending.take maxChunks, rfl, always⟩
        rcases other with ⟨more, other⟩
        have less := interruptions_less other interrupted
        simpa only [waits, label, calls] using less
    · exact .inr stops
  | consume job plist n =>
    obtain ⟨rfl, pending, taken, sending, positive, small, rfl⟩ := during
    obtain ⟨next, turn, during, shorter⟩ :=
      @consume_turn maxChunks world plist pending taken njobsdone sending positive small
    refine .inl ⟨next, turn, during, fun _ => measure_shorter ?_⟩
    have held : heldIn ⟨world, njobsdone, .consume 0 plist (BitVec.ofNat 64 taken)⟩ = pending.flatten :=
      held_packets sending.packets
    rw [held]
    exact shorter
  | sendfile job fd => exact absurd during id

theorem doing_visits (some_chunks : 0 < maxChunks) {start : DoingJobs} (during : Doing maxChunks start)
    (visits : Visits (doJobsTurn kernel maxChunks) start doing) : Doing maxChunks doing := by
  apply visits_invariant (Doing maxChunks) ?_ during visits
  intro state next during again
  rcases @doJobs_turn kernel maxChunks state some_chunks during with ⟨reached, turn, still, -⟩ | ⟨_, _, _, turn, -⟩
  · cases turn.symm.trans again
    exact still
  · cases turn.symm.trans again

theorem stuck_endless (stuck : Stuck kernel doing) (fuel : Nat) : loop (doJobsTurn kernel maxChunks) fuel doing = none := by
  apply loop_none (Stuck kernel) ?_ stuck
  rintro ⟨world, njobsdone, label⟩ ⟨job, plist, chunks, rfl, interrupted⟩
  have now : kernel.reply world.calls chunks.flatten.length = .interrupted := interrupted 0
  let called : World := { world with calls := world.calls + 1 }.emit [.writev chunks .interrupted]
  refine ⟨{ world := called, njobsdone, label := .rewrite job plist chunks }, ?_, job, plist, chunks, rfl, ?_⟩
  · simp only [doJobsTurn, rewriteTurn, now, called]
  · intro more
    have later := interrupted (1 + more)
    rw [← Nat.add_assoc] at later
    exact later

end Turns

section DoJobs

variable {kernel : Kernel} {maxChunks : Nat} {world : World} {pending : List (List Byte)}

theorem balanced_doJobs (some_chunks : 0 < maxChunks) (balanced : Balanced world pending) (fuel : Nat) :
    Balances (apeSocketDoJobs kernel maxChunks fuel world) := by
  intro outcome returned
  have initial : Doing maxChunks { world } := ⟨pending, balanced⟩
  apply @loop_result _ _ (doJobsTurn kernel maxChunks) _ (Doing maxChunks)
    (fun outcome => ∃ next ret pending, outcome = .ok (next, ret) ∧ Balanced next pending) ?_ fuel outcome initial returned
  intro state during
  rcases @doJobs_turn kernel maxChunks state some_chunks during with ⟨next, turn, still, -⟩ | ⟨next, ret, more, turn, kept⟩
  · exact .inl ⟨next, turn, still⟩
  · exact .inr ⟨_, turn, next, ret, more, rfl, kept⟩

theorem doJobs_ends (some_chunks : 0 < maxChunks) (balanced : Balanced world pending)
    (free : ∀ doing, Visits (doJobsTurn kernel maxChunks) { world } doing → ¬ Stuck kernel doing) :
    ∃ fuel outcome, apeSocketDoJobs kernel maxChunks fuel world = some outcome := by
  have initial : Doing maxChunks { world } := ⟨pending, balanced⟩
  apply @loop_ends _ _ _ (doJobsTurn kernel maxChunks) _ _ _
    (fun doing => Doing maxChunks doing ∧ Visits (doJobsTurn kernel maxChunks) { world } doing) (measure kernel) ?_
    ⟨initial, .start⟩
  rintro state ⟨during, visits⟩
  rcases @doJobs_turn kernel maxChunks state some_chunks during with ⟨next, turn, still, less⟩ | ⟨_, _, _, turn, -⟩
  · exact .inl ⟨next, turn, ⟨still, visits.turn turn⟩, less (free state visits)⟩
  · exact .inr ⟨_, turn⟩

/-- With something pending and every call interrupted, it does not end. -/
theorem interrupted_endless (balanced : Balanced world pending) (some_pending : pending ≠ [])
    (interrupted : ∀ more offered, kernel.reply (world.calls + more) offered = .interrupted) (fuel : Nat) :
    apeSocketDoJobs kernel maxChunks fuel world = none := by
  rcases @job_turn maxChunks world pending 0 balanced with ⟨plist, chunks, turn, -⟩ | ⟨none, -⟩
  · have starts : doJobsTurn kernel maxChunks { world } = .again { world, label := .rewrite 0 plist chunks } := turn
    apply loop_none_of_visits (Visits.start.turn starts)
    exact stuck_endless ⟨0, plist, chunks, rfl, fun more => interrupted more _⟩
  · exact absurd none some_pending

end DoJobs

section Runs

variable {kernel : Kernel} {maxChunks : Nat} {world : World} {pending : List (List Byte)}

theorem balanced_perform (some_chunks : 0 < maxChunks) (balanced : Balanced world pending) (call : SocketCall)
    {fuel : Nat} {result : Except Fault World} (returned : world.perform kernel maxChunks fuel call = some result) :
    ∃ next more, result = .ok next ∧ Balanced next more := by
  have outcomes : ∀ outcome, Balances outcome → outcome.map (·.map Prod.fst) = some result →
      ∃ next more, result = .ok next ∧ Balanced next more := by
    intro outcome balances mapped
    rcases Option.map_eq_some_iff.mp mapped with ⟨value, given, rfl⟩
    rcases balances value given with ⟨next, ret, more, rfl, kept⟩
    exact ⟨next, more, rfl, kept⟩
  cases call with
  | write data dataType => exact outcomes _ (balanced_write balanced data.object fuel) returned
  | writable =>
    cases returned
    exact ⟨_, pending, rfl, balanced.log rfl rfl rfl rfl⟩
  | doJobs => exact outcomes _ (balanced_doJobs some_chunks balanced fuel) returned

theorem balanced_run (some_chunks : 0 < maxChunks) (balanced : Balanced world pending) {calls : List SocketCall}
    {fuel : Nat} {result : Except Fault World} (returned : world.performAll kernel maxChunks fuel calls = some result) :
    ∃ next more, result = .ok next ∧ Balanced next more := by
  induction calls generalizing world pending with
  | nil =>
    cases returned
    exact ⟨world, pending, rfl, balanced⟩
  | cons call calls ih =>
    rw [World.performAll] at returned
    cases performed : world.perform kernel maxChunks fuel call with
    | none =>
      rw [performed] at returned
      cases returned
    | some outcome =>
      rw [performed] at returned
      obtain ⟨next, more, rfl, kept⟩ := balanced_perform some_chunks balanced call performed
      exact ih kept returned

theorem perform_ends (some_chunks : 0 < maxChunks) (balanced : Balanced world pending) (call : SocketCall) :
    (∃ fuel result, world.perform kernel maxChunks fuel call = some result) ∨
      call = .doJobs ∧ ∃ doing, Visits (doJobsTurn kernel maxChunks) { world } doing ∧ Stuck kernel doing := by
  cases call with
  | write data dataType =>
    obtain ⟨fuel, outcome, returned⟩ := @write_ends kernel data.bytes dataType world pending balanced data.object
    exact .inl ⟨fuel, _, Option.map_eq_some_iff.mpr ⟨outcome, returned, rfl⟩⟩
  | writable => exact .inl ⟨0, _, rfl⟩
  | doJobs =>
    by_cases stuck : ∃ doing, Visits (doJobsTurn kernel maxChunks) { world } doing ∧ Stuck kernel doing
    · exact .inr ⟨rfl, stuck⟩
    · obtain ⟨fuel, outcome, returned⟩ :=
        doJobs_ends some_chunks balanced fun doing visits still => stuck ⟨doing, visits, still⟩
      exact .inl ⟨fuel, _, Option.map_eq_some_iff.mpr ⟨outcome, returned, rfl⟩⟩

end Runs

/-- The packet list, wherever it is looked at. -/
structure SpareSlot (plist : PoolList Packet) (filled : List Nat) (spare : Nat) (more : List Nat) : Prop where
  shape : Shape plist (filled ++ spare :: more)
  current : plist.current = some spare
  full : ∀ slot ∈ filled, (contents plist slot).data ≠ none
  empty : ∀ slot ∈ spare :: more, (contents plist slot).data = none

/-- So many of the held bytes were accepted and are about to be taken off the list. -/
def takenIn (doing : DoingJobs) : Nat :=
  match doing.label with
  | .consume _ _ n => n.toNat
  | _ => 0

/-- What should hold before and after every call, and at every turn of `ape_socket_do_jobs`. -/
structure Sound (doing : DoingJobs) : Prop where
  bytes : flushed doing.world.out ++ (heldIn doing).drop (takenIn doing) = (queuedSuffixes doing.world.out).flatten
  counted : doing.world.socket.currentBufferMemoryBytes = BitVec.ofNat 64 ((heldIn doing).length - takenIn doing)
  spare : ∀ plist, packetList doing = some plist → plist.head ≠ none ∧ ∃ filled spare more, SpareSlot plist filled spare more

section Sound

variable {maxChunks : Nat} {doing : DoingJobs}

theorem packets_spare {plist : PoolList Packet} {pending : List (List Byte)} (packets : Packets plist pending) :
    plist.head ≠ none ∧ ∃ filled spare more, SpareSlot plist filled spare more := by
  obtain ⟨filled, spare, more, slots⟩ := packets
  constructor
  · have chain := slots.shape.chain
    cases filled with
    | nil => simp [chain.1]
    | cons slot filled => simp [chain.1]
  · refine ⟨filled, spare, more, { shape := slots.shape, current := slots.current, full := ?_, empty := slots.empty }⟩
    intro slot member
    obtain ⟨index, inside, rfl⟩ := List.mem_iff_getElem.mp member
    obtain ⟨data, carries⟩ := slots.carries.get inside (slots.carries.length_eq ▸ inside)
    simpa using carries.stored ▸ Option.some_ne_none data

theorem Lists.sound {pending : List (List Byte)} {taken : Nat} (lists : Lists doing pending) (count : takenIn doing = taken)
    (bytes : doing.world.socket.currentBufferMemoryBytes = BitVec.ofNat 64 (pending.flatten.length - taken))
    (total : flushed doing.world.out ++ pending.flatten.drop taken = (queuedSuffixes doing.world.out).flatten) :
    Sound doing := by
  refine { bytes := ?_, counted := ?_, spare := ?_ }
  · rw [lists.held, count, total]
  · rw [lists.held, count, bytes]
  · intro plist found
    rcases lists with ⟨none, -⟩ | ⟨list, listed, packets⟩
    · cases none.symm.trans found
    · cases listed.symm.trans found
      exact packets_spare packets

theorem sound_of_doing (during : Doing maxChunks doing) : Sound doing := by
  rcases doing with ⟨world, njobsdone, label⟩
  cases label with
  | job =>
    obtain ⟨pending, balanced⟩ := during
    exact (lists_job balanced).sound rfl balanced.waiting.bytes balanced.total
  | rewrite job plist chunks =>
    obtain ⟨-, pending, sending, -, -⟩ := during
    have lists : Lists ⟨world, njobsdone, .rewrite job plist chunks⟩ pending := .inr ⟨plist, rfl, sending.packets⟩
    exact lists.sound rfl sending.bytes sending.total
  | consume job plist n =>
    obtain ⟨-, pending, taken, sending, -, small, rfl⟩ := during
    have lists : Lists ⟨world, njobsdone, .consume job plist (BitVec.ofNat 64 taken)⟩ pending :=
      .inr ⟨plist, rfl, sending.packets⟩
    exact lists.sound (toNat_ofNat_size small) sending.bytes sending.total
  | sendfile job fd => exact absurd during id

end Sound

/-- A plain socket that is online, and to which nothing was written yet. -/
def freshSocket (maxBufferMemoryMb totalMemoryBuffered : SizeT) : World :=
  { socket := { maxBufferMemoryMb }, totalMemoryBuffered }

theorem balanced_fresh (maxBufferMemoryMb totalMemoryBuffered : SizeT) :
    Balanced (freshSocket maxBufferMemoryMb totalMemoryBuffered) [] where
  waiting := { head := rfl, current := rfl, holds := .inl ⟨rfl, rfl⟩, flags := .inl ⟨rfl, rfl⟩, bytes := rfl }
  total := rfl

/-- Nothing that was queued is lost, doubled or reordered, and every call ends unless `writev` is interrupted for ever. -/
theorem runs_sound (kernel : Kernel) {maxChunks : Nat} (some_chunks : 0 < maxChunks)
    (maxBufferMemoryMb totalMemoryBuffered : SizeT) (calls : List SocketCall) (fuel : Nat) (result : Except Fault World)
    (returned : (freshSocket maxBufferMemoryMb totalMemoryBuffered).performAll kernel maxChunks fuel calls =
      some result) :
    ∃ world, result = .ok world ∧
      (∀ doing, Visits (doJobsTurn kernel maxChunks) { world } doing → Sound doing) ∧
      ∀ call, (∃ more next, world.perform kernel maxChunks more call = some (.ok next)) ∨
        call = .doJobs ∧ ∃ doing, Visits (doJobsTurn kernel maxChunks) { world } doing ∧ Stuck kernel doing := by
  obtain ⟨world, pending, rfl, balanced⟩ :=
    balanced_run some_chunks (balanced_fresh maxBufferMemoryMb totalMemoryBuffered) returned
  refine ⟨world, rfl, fun doing visits => ?_, fun call => ?_⟩
  · have initial : Doing maxChunks { world } := ⟨pending, balanced⟩
    exact sound_of_doing (doing_visits some_chunks initial visits)
  · rcases @perform_ends kernel maxChunks world pending some_chunks balanced call with ⟨more, outcome, performed⟩ | stuck
    · obtain ⟨next, -, rfl, -⟩ := balanced_perform some_chunks balanced call performed
      exact .inl ⟨more, next, performed⟩
    · exact .inr stuck

/-- Would block once, and accepts one byte at a time afterwards. -/
def hesitant : Kernel where
  reply call offered := if call = 0 then .again else .accepted (min offered 1)
  honest := by
    intro call offered count accepted
    split at accepted
    · cases accepted
    · exact honest_bytewise accepted

/-- Would block once, and is interrupted for ever afterwards. -/
def stubborn : Kernel where
  reply call _ := if call = 0 then .again else .interrupted
  honest := by
    intro call offered count accepted
    split at accepted <;> cases accepted

def twoBytes : DataObject where
  bytes := [0x41#8, 0x42#8]
  object := by decide

theorem runs_sound_hesitant :
    ∃ world, (freshSocket 0 0).performAll hesitant 1024 6 [.write twoBytes .static, .writable, .doJobs] = some (.ok world) ∧
      Sound { world } := by
  have ends : ((freshSocket 0 0).performAll hesitant 1024 6 [.write twoBytes .static, .writable, .doJobs]).isSome = true := by
    decide
  obtain ⟨result, returned⟩ := Option.isSome_iff_exists.mp ends
  obtain ⟨world, rfl, sound, -⟩ := runs_sound hesitant (by decide) 0 0 _ 6 result returned
  exact ⟨world, returned, sound _ .start⟩

theorem interrupted_run_endless :
    ∃ world, (freshSocket 0 0).performAll stubborn 1024 1 [.write twoBytes .static, .writable] = some (.ok world) ∧
      ∀ fuel, apeSocketDoJobs stubborn 1024 fuel world = none := by
  have seen : ((freshSocket 0 0).performAll stubborn 1024 1 [.write twoBytes .static, .writable]).map
      (·.map fun world => (world.calls, flushed world.out, (queuedSuffixes world.out).flatten)) =
      some (.ok (1, [], twoBytes.bytes)) := by rfl
  rcases Option.map_eq_some_iff.mp seen with ⟨result, returned, observed⟩
  obtain ⟨world, pending, rfl, balanced⟩ := balanced_run (by decide) (balanced_fresh 0 0) returned
  obtain ⟨calls, sent, queued⟩ : world.calls = 1 ∧ flushed world.out = [] ∧
      (queuedSuffixes world.out).flatten = twoBytes.bytes := by
    simpa only [Except.map, Except.ok.injEq, Prod.mk.injEq] using observed
  refine ⟨world, returned, interrupted_endless balanced ?_ ?_⟩
  · rintro rfl
    have total := balanced.total
    rw [sent, queued] at total
    cases total
  · intro more offered
    simp [stubborn, calls]

end ZapeProof
