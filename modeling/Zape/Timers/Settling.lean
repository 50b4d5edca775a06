import Zape.Timers.Protocol

/-! How often an async is cleared, run and released, over all runs. -/
namespace ZapeProof

open Machine ZapeModel

section Released

/-- Whether an async has a clear function when it is cleared or released, after so many events. -/
def clearfuncAtEnd (async : Nat) (clearfunc : Bool) : List AsyncEvent → Bool
  | [] => clearfunc
  | event :: events =>
    if AsyncEvent.about event = async then
      match event with
      | .set _ clearfunc => clearfuncAtEnd async clearfunc events
      | .clear _ | .free _ => clearfunc
      | .create _ | .destroy _ | .run _ => clearfuncAtEnd async clearfunc events
    else clearfuncAtEnd async clearfunc events

def Phase.through (phase : Phase) (async : Nat) (log : List AsyncEvent) : Option Phase :=
  (log.filter fun event => AsyncEvent.about event = async).foldlM Phase.next phase

theorem through_cons (phase : Phase) (async : Nat) (event : AsyncEvent) (log : List AsyncEvent) :
    phase.through async (event :: log) =
      if AsyncEvent.about event = async then (phase.next event).bind (·.through async log) else phase.through async log := by
  unfold Phase.through
  by_cases same : AsyncEvent.about event = async
  · simp only [same, List.filter_cons, decide_true, if_true, List.foldlM_cons]
    rfl
  · simp [same]

theorem through_append (phase : Phase) (async : Nat) (early late : List AsyncEvent) :
    phase.through async (early ++ late) = (phase.through async early).bind (·.through async late) := by
  simp only [Phase.through, List.filter_append, List.foldlM_append]
  rfl

def Phase.runsLeft : Phase → Nat
  | .absent | .pending _ => 1
  | .running _ | .clearing | .freed => 0

def Phase.clearsLeft (async : Nat) (log : List AsyncEvent) : Phase → Nat
  | .absent => (clearfuncAtEnd async false log).toNat
  | .pending clearfunc | .running clearfunc => (clearfuncAtEnd async clearfunc log).toNat
  | .clearing | .freed => 0

/-- What lies between two phases of a life. -/
structure Crosses (phase final : Phase) (async : Nat) (log : List AsyncEvent) : Prop where
  frees : log.count (.free async) + (if phase = .freed then 1 else 0) = if final = .freed then 1 else 0
  runs : log.count (.run async) ≤ phase.runsLeft
  clears : final = .freed → log.count (.clear async) = phase.clearsLeft async log

theorem Crosses.step {phase later final : Phase} {event : AsyncEvent} {log : List AsyncEvent}
    (rest : Crosses later final (AsyncEvent.about event) log) (step : phase.next event = some later) :
    Crosses phase final (AsyncEvent.about event) (event :: log) := by
  obtain ⟨frees, runs, clears⟩ := rest
  -- only the events that the phase allows are left
  cases event <;> rcases phase with _ | (_ | _) | (_ | _) | _ | _ <;> cases step <;>
    exact ⟨by simpa [List.count_cons, AsyncEvent.about] using frees,
      by simp [AsyncEvent.about, Phase.runsLeft] at runs ⊢; omega,
      by simpa [List.count_cons, AsyncEvent.about, Phase.clearsLeft, clearfuncAtEnd] using clears⟩

theorem through_crosses {async : Nat} {log : List AsyncEvent} {phase final : Phase}
    (follows : phase.through async log = some final) : Crosses phase final async log := by
  induction log generalizing phase with
  | nil =>
    cases follows
    refine ⟨by simp, by simp, ?_⟩
    rintro rfl
    rfl
  | cons event log ih =>
    rw [through_cons] at follows
    split at follows
    · rename_i about
      obtain ⟨later, step, rest⟩ := Option.bind_eq_some_iff.mp follows
      have crosses := ih rest
      subst about
      exact crosses.step step
    · rename_i other
      obtain ⟨frees, runs, clears⟩ := ih follows
      have apart : ∀ make : Nat → AsyncEvent, AsyncEvent.about (make async) = async → event ≠ make async := by
        rintro make same rfl
        exact other same
      refine ⟨?_, ?_, ?_⟩
      · rw [List.count_cons_of_ne (apart .free rfl), frees]
      · rw [List.count_cons_of_ne (apart .run rfl)]
        exact runs
      · intro ended
        rw [List.count_cons_of_ne (apart .clear rfl), clears ended]
        cases phase <;> simp only [Phase.clearsLeft, clearfuncAtEnd, other, if_false]

/-- An async that is still there has not been released. Any other one was released once, after its callback if that
    ran at all, and after its clear function ran once if it had one. -/
structure Settled (asyncs : Asyncs) (async : Nat) : Prop where
  frees : asyncs.log.count (.free async) = if (asyncs.node async).isSome then 0 else 1
  runs : asyncs.log.count (.run async) ≤ 1
  clears : asyncs.node async = none → asyncs.log.count (.clear async) = (clearfuncAtEnd async false asyncs.log).toNat
  last : ∀ early late, asyncs.log = early ++ .free async :: late → .run async ∉ late

theorem Lives.settled {asyncs : Asyncs} {waiting running clearing : List Nat} {async : Nat}
    (lives : Lives asyncs waiting running clearing) (exists_ : async < asyncs.count) : Settled asyncs async := by
  obtain ⟨phase, alive, freed⟩ : ∃ phase, life async asyncs.log = some phase ∧
      (phase = .freed ↔ asyncs.node async = none) := by
    by_cases waits : async ∈ waiting
    · obtain ⟨clearfunc, node, alive⟩ := lives.waits async waits
      exact ⟨_, alive, by simp [node]⟩
    · by_cases runs : async ∈ running
      · obtain ⟨clearfunc, node, alive⟩ := lives.runs async runs
        exact ⟨_, alive, by simp [node]⟩
      · by_cases clears : async ∈ clearing
        · obtain ⟨node, alive⟩ := lives.clears async clears
          exact ⟨_, alive, by simp [node]⟩
        · obtain ⟨node, alive⟩ := lives.gone async waits runs clears
          rw [if_pos exists_] at alive
          exact ⟨_, alive, by simp [node]⟩
  have follows : Phase.absent.through async asyncs.log = some phase := alive
  have crosses := through_crosses follows
  refine ⟨?_, crosses.runs, fun node => crosses.clears (freed.mpr node), ?_⟩
  · have frees := crosses.frees
    cases node : asyncs.node async with
    | none => simpa [freed.mpr node] using frees
    | some clearfunc =>
      have there : phase ≠ .freed := by simp [freed, node]
      simpa [there] using frees
  · intro early late split
    rw [split, through_append] at follows
    obtain ⟨before, -, later⟩ := Option.bind_eq_some_iff.mp follows
    have about : AsyncEvent.about (.free async) = async := rfl
    rw [through_cons, if_pos about] at later
    obtain ⟨after, step, rest⟩ := Option.bind_eq_some_iff.mp later
    have ended : after = .freed := by
      rcases before with _ | (_ | _) | (_ | _) | _ | _ <;> cases step <;> rfl
    subst ended
    have none := (through_crosses rest).runs
    exact List.count_eq_zero.mp (Nat.le_zero.mp none)

/-- The async whose clear function `del_async_all` comes to next. -/
def deletesNext (asyncs : Asyncs) : AsyncMove → Option Nat
  | .deleteAll => asyncs.headAsync.head?
  | .resume =>
    match asyncs.frames with
    | .deleting _ tmp :: _ => tmp.head?
    | _ => none
  | .async | .setClearfunc _ _ | .destroy _ | .process => none

theorem runNext_called (asyncs : Asyncs) (hand : List Nat) : asyncs.runNext hand ≠ .error .nullDereference := by
  cases hand with
  | nil => simp [Asyncs.runNext]
  | cons cur ctmp =>
    rw [Asyncs.runNext]
    split <;> simp

theorem deleteNext_null (asyncs : Asyncs) (hand : List Nat) :
    asyncs.deleteNext hand = .error .nullDereference ↔ ∃ async, hand.head? = some async ∧ asyncs.node async = some false := by
  cases hand with
  | nil => simp [Asyncs.deleteNext]
  | cons async tmp =>
    rw [Asyncs.deleteNext]
    split <;> rename_i node <;> simp [node]

theorem asyncStep_null {asyncs : Asyncs} (orderly : InPlace asyncs) (move : AsyncMove) :
    asyncStep asyncs move = .error .nullDereference ↔
      ∃ async, deletesNext asyncs move = some async ∧ asyncs.node async = some false := by
  cases move with
  | async => simp [asyncStep, deletesNext]
  | setClearfunc async clearfunc =>
    simp only [asyncStep, Asyncs.apeAsyncSetclearfunc]
    split <;> simp [deletesNext]
  | destroy async =>
    simp only [asyncStep, Asyncs.apeAsyncDestroy]
    split
    · simp [deletesNext]
    · split
      · split <;> simp [deletesNext]
      · simp [deletesNext]
  | process => simp [asyncStep, Asyncs.processAsync, runNext_called, deletesNext]
  | deleteAll => exact deleteNext_null { asyncs with headAsync := [] } asyncs.headAsync
  | resume =>
    unfold InPlace at orderly
    simp only [asyncStep, Asyncs.resume, deletesNext]
    rcases stack : asyncs.frames with _ | ⟨frame, frames⟩
    · simp
    · rw [stack] at orderly
      cases frame with
      | callback cur ctmp =>
        dsimp only
        split <;> simp [runNext_called]
      | clearing cur ctmp => simp [runNext_called]
      | destroying async => simp
      | deleting async tmp =>
        dsimp only
        rw [deleteNext_null]
        -- what is released here is not what comes next
        have apart : ∀ other, tmp.head? = some other → other ≠ async := by
          rintro other first rfl
          have once := orderly.once other
          have waits : 0 < tmp.count other := List.count_pos_iff.mpr (List.mem_of_head? first)
          simp only [List.flatMap_cons, AsyncFrame.rest, AsyncFrame.clears, List.count_append, List.count_singleton_self]
            at once
          omega
        constructor
        · rintro ⟨other, first, node⟩
          refine ⟨other, first, ?_⟩
          rw [← node]
          exact (Function.update_of_ne (apart other first) none asyncs.node).symm
        · rintro ⟨other, first, node⟩
          refine ⟨other, first, ?_⟩
          rw [← node]
          exact Function.update_of_ne (apart other first) none asyncs.node

end Released

end ZapeProof
