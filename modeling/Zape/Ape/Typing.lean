import Zape.Ape.Requests
import Zape.Ape.Buffering

/-! Whether `ape_socket_do_jobs` does with every job what it was queued for. -/
namespace ZapeModel

open Machine

/-- The type of the jobs that a call asks `ape_socket_job_get_slot` for. -/
def ApiCall.type : ApiCall → Option JobType
  | .socket (.write _ _) => some .writev
  | .sendfile _ => some .sendfile
  | .shutdown => some .shutdown
  | .socket .writable | .socket .doJobs => none

/-- A world, and for every slot the type that was requested when it was taken last. -/
structure Tracked where
  world : World := {}
  requested : Nat → Option JobType := fun _ => none

/-- A slot is taken by the call that makes it active. -/
def becomesActive (old new : World) (slot : Nat) : Bool :=
  !(old.socket.jobs.node slot).active && (new.socket.jobs.node slot).active

def Tracked.step (kernel : Kernel) (maxChunks fuel : Nat) (tracked : Tracked) (call : ApiCall) :
    Except Stop Tracked :=
  match tracked.world.performApi kernel maxChunks fuel call with
  | .error reason => .error reason
  | .ok world =>
    let taken := becomesActive tracked.world world
    .ok { world, requested := fun slot => if taken slot then call.type else tracked.requested slot }

end ZapeModel

namespace ZapeProof

open Machine ZapeModel

/-- Every active job carries one type bit, the one of the type that was requested. -/
def Typed (jobs : PoolList Job) (requested : Nat → Option JobType) : Prop :=
  ∀ slot, (jobs.node slot).active = true → ∃ type, requested slot = some type ∧ kindOf jobs slot = type.flag

/-- So it is now, and at every turn of `ape_socket_do_jobs` if that is called now. -/
def TypedThroughout (kernel : Kernel) (maxChunks : Nat) (tracked : Tracked) : Prop :=
  ∀ doing, Visits (doJobsTurn kernel maxChunks) { world := tracked.world } doing →
    Typed doing.world.socket.jobs tracked.requested

/-- The slot that is taken carries no bit of another type. -/
def TakesClean (kernel : Kernel) (maxChunks fuel : Nat) (tracked : Tracked) (call : ApiCall) : Prop :=
  ∀ world, tracked.world.performApi kernel maxChunks fuel call = .ok world →
    ∀ slot, becomesActive tracked.world world slot = true →
      ∀ type, call.type = some type → kindOf tracked.world.socket.jobs slot &&& ~~~type.flag = 0#32

section Steps

variable {kernel : Kernel} {maxChunks fuel : Nat} {tracked : Tracked} {call : ApiCall} {world : World}

theorem outcome_ok {α : Type} {result : Option (Except Fault α)} {value : α}
    (ok : Stop.outcome result = .ok value) : result = some (.ok value) := by
  rcases result with _ | _ | value
  · cases ok
  · cases ok
  · cases ok
    rfl

theorem outcome_first {result : Option (Except Fault (World × Int))}
    (ok : Stop.outcome (result.map (·.map Prod.fst)) = .ok world) : ∃ ret, result = some (.ok (world, ret)) := by
  rcases result with _ | _ | ⟨found, ret⟩
  · cases ok
  · cases ok
  · cases ok
    exact ⟨ret, rfl⟩

/-- Every call either takes a slot for its type, or at most ends jobs. -/
theorem performApi_slots (free : FreeBehind tracked.world.socket.jobs)
    (performed : tracked.world.performApi kernel maxChunks fuel call = .ok world) :
    FreeBehind world.socket.jobs ∧ (Ended tracked.world.socket.jobs world.socket.jobs ∨
      ∃ type, call.type = some type ∧ Took type tracked.world.socket.jobs world.socket.jobs) := by
  have takes : ∀ type, call.type = some type → TakesOne type tracked.world world →
      FreeBehind world.socket.jobs ∧ (Ended tracked.world.socket.jobs world.socket.jobs ∨
        ∃ type, call.type = some type ∧ Took type tracked.world.socket.jobs world.socket.jobs) := by
    intro type asked one
    refine ⟨one.free, ?_⟩
    rcases one.taken with same | took
    · exact .inl fun slot => .inl (by rw [same.flags])
    · exact .inr ⟨type, asked, took⟩
  cases call with
  | socket call =>
    cases call with
    | write data dataType =>
      obtain ⟨ret, returned⟩ := outcome_first performed
      exact takes .writev rfl (write_takes free returned)
    | writable =>
      cases performed
      exact ⟨free, .inl (Ended.refl _)⟩
    | doJobs =>
      obtain ⟨ret, returned⟩ := outcome_first performed
      have only := doJobs_onlyEnds free returned
      exact ⟨only.free, .inl only.ended⟩
  | sendfile file =>
    obtain ⟨ret, returned⟩ := outcome_first performed
    exact takes .sendfile rfl (sendfile_takes free returned)
  | shutdown =>
    exact takes .shutdown rfl (shutdown_takes free (Option.some.inj (outcome_ok performed)))

end Steps

section Kinds

theorem or_eq_iff (left right : BitVec 32) : left ||| right = right ↔ left &&& ~~~right = 0#32 := by
  constructor
  · intro same
    rw [← same, BitVec.not_or, ← BitVec.and_assoc, BitVec.and_not_self]
    simp
  · intro none
    apply BitVec.eq_of_getLsbD_eq
    intro index inside
    have bit := congrArg (fun value => BitVec.getLsbD value index) none
    simp only [BitVec.getLsbD_and, BitVec.getLsbD_not, inside, decide_true, Bool.true_and, BitVec.getLsbD_zero] at bit
    rw [BitVec.getLsbD_or]
    cases first : left.getLsbD index with
    | false => exact Bool.false_or _
    | true =>
      cases second : right.getLsbD index with
      | false =>
        rw [first, second] at bit
        cases bit
      | true => rfl

variable {old new : PoolList Job} {requested : Nat → Option JobType}

theorem Typed.ended (typed : Typed old requested) (ended : Ended old new) : Typed new requested := by
  intro slot active
  have busy := (active_iff new slot).mp active
  rcases ended slot with same | cleared
  · have before : (old.node slot).active = true := by
      rw [active_iff, ← same]
      exact busy
    obtain ⟨type, asked, kind⟩ := typed slot before
    exact ⟨type, asked, by rw [kindOf, same]; exact kind⟩
  · rw [cleared, released_inactive] at busy
    exact absurd rfl busy

theorem becomesActive_iff {old new : World} {slot : Nat} :
    becomesActive old new slot = true ↔
      flagsOf old.socket.jobs slot &&& apeSocketJobActive = 0#32 ∧
        flagsOf new.socket.jobs slot &&& apeSocketJobActive ≠ 0#32 := by
  rw [becomesActive, Bool.and_eq_true, Bool.not_eq_true', inactive_iff, active_iff]

theorem ended_stays {old new : World} (ended : Ended old.socket.jobs new.socket.jobs) (slot : Nat) :
    becomesActive old new slot = false := by
  by_contra becomes
  obtain ⟨quiet, busy⟩ := becomesActive_iff.mp (Bool.not_eq_false _ ▸ becomes)
  exact busy (ended.inactive quiet)

end Kinds

section Runs

variable {kernel : Kernel} {maxChunks fuel : Nat}

/-- What holds of the job list as long as only clean slots are taken. -/
structure CleanJobs (tracked : Tracked) : Prop where
  free : FreeBehind tracked.world.socket.jobs
  typed : Typed tracked.world.socket.jobs tracked.requested

theorem CleanJobs.throughout {tracked : Tracked} (clean : CleanJobs tracked) :
    TypedThroughout kernel maxChunks tracked := by
  intro doing visits
  exact clean.typed.ended (doJobs_visits clean.free visits).ended

theorem cleanJobs_step {tracked next : Tracked} {call : ApiCall} (clean : CleanJobs tracked)
    (takesClean : TakesClean kernel maxChunks fuel tracked call)
    (stepped : tracked.step kernel maxChunks fuel call = .ok next) : CleanJobs next := by
  cases performed : tracked.world.performApi kernel maxChunks fuel call with
  | error reason =>
    simp only [Tracked.step, performed] at stepped
    cases stepped
  | ok world =>
    simp only [Tracked.step, performed] at stepped
    cases stepped
    obtain ⟨free, ended | ⟨type, asked, slot, taken, active, kind, others⟩⟩ := performApi_slots clean.free performed
    · refine { free, typed := ?_ }
      simp only [ended_stays ended, Bool.false_eq_true, ite_false]
      exact clean.typed.ended ended
    · refine { free, typed := ?_ }
      intro other busy
      by_cases same : other = slot
      · subst same
        by_cases becomes : becomesActive tracked.world world other = true
        · refine ⟨type, by simp only [becomes, ite_true, asked], ?_⟩
          rw [kind]
          exact (or_eq_iff _ _).mpr (takesClean world performed other becomes type asked)
        · have before : ¬ flagsOf tracked.world.socket.jobs other &&& apeSocketJobActive = 0#32 :=
            fun quiet => becomes (becomesActive_iff.mpr ⟨quiet, active⟩)
          rcases taken with quiet | ⟨rfl, data⟩
          · exact absurd quiet before
          · obtain ⟨type, was, had⟩ := clean.typed other ((active_iff _ _).mpr before)
            have writev := kind_writev data had
            subst writev
            refine ⟨.writev, by simp only [becomes, Bool.false_eq_true, ite_false, was], ?_⟩
            rw [kind, had, BitVec.or_self]
      · have kept := others other same
        have before : (tracked.world.socket.jobs.node other).active = true := by
          rw [active_iff, ← kept.1]
          exact (active_iff _ _).mp busy
        have stays : ¬ becomesActive tracked.world world other = true := by
          intro becomes
          exact (active_iff _ _).mp before (becomesActive_iff.mp becomes).1
        obtain ⟨type, was, had⟩ := clean.typed other before
        exact ⟨type, by simp only [stays, Bool.false_eq_true, ite_false, was], by rw [kept.2, had]⟩

theorem unclean_breaks {tracked : Tracked} {call : ApiCall} (clean : CleanJobs tracked)
    (unclean : ¬ TakesClean kernel maxChunks fuel tracked call) :
    ∃ next, tracked.step kernel maxChunks fuel call = .ok next ∧ ¬ TypedThroughout kernel maxChunks next := by
  simp only [TakesClean, not_forall] at unclean
  obtain ⟨world, performed, slot, becomes, type, asked, dirty⟩ := unclean
  let requested : Nat → Option JobType :=
    fun slot => if becomesActive tracked.world world slot then call.type else tracked.requested slot
  refine ⟨{ world, requested }, by simp only [Tracked.step, performed, requested], ?_⟩
  intro throughout
  obtain ⟨quiet, busy⟩ := becomesActive_iff.mp becomes
  obtain ⟨found, was, kind⟩ := throughout _ .start slot ((active_iff _ _).mpr busy)
  simp only [requested, becomes, ite_true, asked, Option.some.injEq] at was
  subst was
  obtain ⟨-, ended | ⟨other, again, taken, -, -, combined, others⟩⟩ := performApi_slots clean.free performed
  · rw [ended_stays ended] at becomes
    cases becomes
  · cases asked.symm.trans again
    have same : slot = taken := by
      by_contra differ
      have kept := (others slot differ).1
      rw [quiet] at kept
      exact busy kept
    subst same
    rw [combined] at kind
    exact dirty ((or_eq_iff _ _).mp kind)

theorem flags_fresh (limit total : SizeT) (slot : Nat) :
    flagsOf (freshSocket limit total).socket.jobs slot = if slot = 0 then apePoolAlloc else 0#32 := by
  show (apeNewPool (fun _ => ({ content := default } : PoolNode Job)) 0 2 slot).flags = _
  by_cases inside : slot < 2
  · simp [apeNewPool, inside]
  · simp [apeNewPool, inside, show slot ≠ 0 by omega]

theorem quiet_fresh (limit total : SizeT) (slot : Nat) :
    flagsOf (freshSocket limit total).socket.jobs slot &&& apeSocketJobActive = 0#32 := by
  rw [flags_fresh]
  split <;> decide

theorem cleanJobs_fresh (limit total : SizeT) : CleanJobs { world := freshSocket limit total } where
  free := by
    refine ⟨[], 0, [1], shape_init (by omega), rfl, fun slot _ => quiet_fresh limit total slot, ?_⟩
    intro slot high
    have outside : 2 ≤ slot := high
    rw [flags_fresh, if_neg (by omega)]
  typed := fun slot active => absurd (quiet_fresh limit total slot) ((active_iff _ slot).mp active)

/-- Every job is done as it was requested exactly in the runs in which every slot that is taken carries no bit of another
    type: the type bits of a slot are never cleared. -/
theorem typed_iff (kernel : Kernel) (maxChunks fuel : Nat) (limit total : SizeT) (calls : List ApiCall) :
    Throughout (Tracked.step kernel maxChunks fuel) { world := freshSocket limit total } calls
        (TypedThroughout kernel maxChunks) ↔
      EachStep (Tracked.step kernel maxChunks fuel) { world := freshSocket limit total } calls
        (TakesClean kernel maxChunks fuel) := by
  apply throughout_iff (cleanJobs_fresh limit total)
  · intro tracked clean
    exact clean.throughout
  · intro tracked call next clean takesClean stepped
    exact cleanJobs_step clean takesClean stepped
  · intro tracked call clean unclean
    exact unclean_breaks clean unclean

end Runs

/-- Would block at the first call of each kind, and later takes whatever it is offered. -/
def reluctant : Kernel where
  reply call offered := if call < 3 then .again else .accepted (min offered 1)
  sendfile call := if call = 0 then .again else .ended
  honest := by
    intro call offered count accepted
    split at accepted
    · cases accepted
    · exact honest_bytewise accepted

/-- A file is queued and sent, and then data is queued in the same slot. -/
def fileThenData : List ApiCall :=
  [.sendfile (some 3), .socket .writable, .socket .doJobs, .socket (.write twoBytes .static)]

/-- The job carries two type bits, and `ape_socket_do_jobs` will drop it. -/
theorem data_after_file_dropped :
    ∃ tracked, runAll (Tracked.step reluctant 1024 5) { world := freshSocket 0 0 } fileThenData = .ok tracked ∧
      ¬ TypedThroughout reluctant 1024 tracked := by
  have seen : (runAll (Tracked.step reluctant 1024 5) { world := freshSocket 0 0 } fileThenData).map
      (fun tracked => ((tracked.world.socket.jobs.node 0).active, kindOf tracked.world.socket.jobs 0)) =
      .ok (true, apeSocketJobWritev ||| apeSocketJobSendfile) := by rfl
  cases reached : runAll (Tracked.step reluctant 1024 5) { world := freshSocket 0 0 } fileThenData with
  | error reason =>
    rw [reached] at seen
    cases seen
  | ok tracked =>
    rw [reached] at seen
    obtain ⟨active, both⟩ := Prod.mk.inj (Except.ok.inj seen)
    refine ⟨tracked, rfl, fun throughout => ?_⟩
    obtain ⟨type, -, kind⟩ := throughout _ .start 0 active
    have wrong : apeSocketJobWritev ||| apeSocketJobSendfile = type.flag := both.symm.trans kind
    cases type <;> exact absurd wrong (by decide)

end ZapeProof
