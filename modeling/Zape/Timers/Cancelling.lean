import Zape.Timers.Protocol

/-! What becomes of an async that is destroyed before its callback was run. -/
namespace ZapeProof

open Machine ZapeModel

section Cancelled

/-- What `process_async` has in hand and has not come to yet. -/
def AsyncFrame.batch : AsyncFrame → List Nat
  | .callback _ rest | .clearing _ rest => rest
  | .destroying _ | .deleting _ _ => []

def batch (asyncs : Asyncs) : List Nat := asyncs.frames.flatMap AsyncFrame.batch

/-- Once an async was destroyed its callback is not run. -/
def StaysCancelled (asyncs : Asyncs) : Prop :=
  asyncs.log.Pairwise fun earlier later => ∀ async, earlier = .destroy async → later ≠ .run async

/-- No async is destroyed that `process_async` has in hand. -/
def SparesBatch (asyncs : Asyncs) (move : AsyncMove) : Prop :=
  ∀ async, move = .destroy async → async ∉ batch asyncs

/-- What a step does to the asyncs whose callbacks have not been run. -/
structure Turns (asyncs : Asyncs) (move : AsyncMove) (next : Asyncs) (events : List AsyncEvent) : Prop where
  log : next.log = asyncs.log ++ events
  count : asyncs.count ≤ next.count
  runs : ∀ async, .run async ∈ events → async ∈ asyncs.headAsync ∨ async ∈ batch asyncs
  waits : ∀ async, async ∈ next.headAsync ∨ async ∈ batch next →
    async ∈ asyncs.headAsync ∨ async ∈ batch asyncs ∨ async = asyncs.count
  kept : ∀ async ∈ batch asyncs, async ∈ batch next ∨ .run async ∈ events
  destroys : ∀ async, .destroy async ∈ events →
    move = .destroy async ∧ async < asyncs.count ∧ async ∉ next.headAsync ∧ batch next = batch asyncs ∧
      ∀ other, .run other ∉ events

theorem runNext_turns {asyncs next : Asyncs} {hand : List Nat} (run : asyncs.runNext hand = .ok next) :
    ∃ events, next.log = asyncs.log ++ events ∧ next.count = asyncs.count ∧ next.headAsync = asyncs.headAsync ∧
      (∀ async, .run async ∈ events → async ∈ hand) ∧ (∀ async, .destroy async ∉ events) ∧
      (∀ async ∈ batch next, async ∈ hand ∨ async ∈ batch asyncs) ∧ (∀ async ∈ batch asyncs, async ∈ batch next) ∧
      ∀ async ∈ hand, async ∈ batch next ∨ .run async ∈ events := by
  cases hand with
  | nil =>
    cases run
    exact ⟨[], by simp⟩
  | cons cur ctmp =>
    rw [Asyncs.runNext] at run
    split at run
    · cases run
    · cases run
      refine ⟨[.run cur], rfl, rfl, rfl, ?_⟩
      simp [batch, Asyncs.enter, Asyncs.emit, AsyncFrame.batch]
      tauto

theorem deleteNext_turns {asyncs next : Asyncs} {hand : List Nat} (delete : asyncs.deleteNext hand = .ok next) :
    ∃ events, next.log = asyncs.log ++ events ∧ next.count = asyncs.count ∧ next.headAsync = asyncs.headAsync ∧
      batch next = batch asyncs ∧ ∀ async, .run async ∉ events ∧ .destroy async ∉ events := by
  cases hand with
  | nil =>
    cases delete
    exact ⟨[], by simp⟩
  | cons async tmp =>
    rw [Asyncs.deleteNext] at delete
    split at delete
    · cases delete
    · cases delete
    · cases delete
      exact ⟨[.clear async], rfl, rfl, rfl, by simp [batch, Asyncs.enter, Asyncs.emit, AsyncFrame.batch], by simp⟩

theorem released_turns {asyncs next : Asyncs} {cur : Nat} {frame : AsyncFrame} {frames : List AsyncFrame}
    {ctmp : List Nat} (stack : asyncs.frames = frame :: frames) (hand : AsyncFrame.batch frame = ctmp)
    (run : ({ asyncs with frames }.free cur).runNext ctmp = .ok next) : ∃ events, Turns asyncs .resume next events := by
  obtain ⟨events, log, count, head, runs, destroys, later, kept, gone⟩ := runNext_turns run
  have whole : batch asyncs = ctmp ++ frames.flatMap AsyncFrame.batch := by
    rw [batch, stack, List.flatMap_cons, hand]
  refine ⟨.free cur :: events, ?_, Nat.le_of_eq count.symm, ?_, fun async waits => ?_, fun async member => ?_, ?_⟩
  · rw [log]
    simp [Asyncs.free, Asyncs.emit]
  · intro async member
    rw [whole]
    exact .inr (List.mem_append_left _ (runs async (List.mem_of_ne_of_mem (by simp) member)))
  · rw [head] at waits
    rcases waits with member | member
    · exact .inl member
    · rw [whole, List.mem_append]
      exact .inr (.inl (later async member))
  · rw [whole, List.mem_append] at member
    rcases member with member | member
    · exact (gone async member).imp_right (List.mem_cons_of_mem _)
    · exact .inl (kept async member)
  · intro async member
    exact absurd (List.mem_of_ne_of_mem (by simp) member) (destroys async)

theorem resume_turns {asyncs next : Asyncs} (resume : asyncs.resume = .ok next) :
    ∃ events, Turns asyncs .resume next events := by
  unfold Asyncs.resume at resume
  split at resume
  · cases resume
    exact ⟨[], by simp, Nat.le_refl _, by simp, fun _ waits => waits.imp_right .inl, fun _ => .inl, by simp⟩
  · rename_i frame frames stack
    cases frame with
    | callback cur ctmp =>
      dsimp only at resume
      split at resume
      · cases resume
      · cases resume
        have same : ∀ async, async ∈ batch (({ asyncs with frames }.emit (.clear cur)).enter (.clearing cur ctmp)) ↔
            async ∈ batch asyncs := by
          intro async
          rw [batch, batch, stack]
          rfl
        exact ⟨[.clear cur], rfl, Nat.le_refl _, by simp, fun async waits => waits.imp_right fun member =>
          .inl ((same async).mp member), fun async member => .inl ((same async).mpr member), by simp⟩
      · exact released_turns stack rfl resume
    | clearing cur ctmp => exact released_turns stack rfl resume
    | destroying async =>
      cases resume
      have same : batch ({ asyncs with frames }.free async) = batch asyncs := by
        rw [batch, batch, stack]
        rfl
      refine ⟨[.free async], rfl, Nat.le_refl _, by simp, fun other waits => ?_, fun other member => .inl ?_, by simp⟩
      · rw [same] at waits
        exact waits.imp_right .inl
      · rw [same]
        exact member
    | deleting async tmp =>
      obtain ⟨events, log, count, head, same, quiet⟩ := deleteNext_turns resume
      have before : batch next = batch asyncs := by
        rw [same, batch, batch, stack]
        rfl
      refine ⟨.free async :: events, ?_, Nat.le_of_eq count.symm, ?_, fun other waits => ?_, fun other member => .inl ?_, ?_⟩
      · rw [log]
        simp [Asyncs.free, Asyncs.emit]
      · intro other member
        exact absurd (List.mem_of_ne_of_mem (by simp) member) (quiet other).1
      · rw [head, before] at waits
        exact waits.imp_right .inl
      · rw [before]
        exact member
      · intro other member
        exact absurd (List.mem_of_ne_of_mem (by simp) member) (quiet other).2

theorem destroy_turns {asyncs next : Asyncs} {async : Nat} (orderly : InPlace asyncs)
    (destroy : asyncs.apeAsyncDestroy async = .ok next) : ∃ events, Turns asyncs (.destroy async) next events := by
  unfold Asyncs.apeAsyncDestroy at destroy
  split at destroy
  · cases destroy
    exact ⟨[], by simp, Nat.le_refl _, by simp, fun _ waits => waits.imp_right .inl, fun _ => .inl, by simp⟩
  · rename_i exists_
    have created : async < asyncs.count := Nat.lt_of_not_le exists_
    dsimp only at destroy
    split at destroy
    · rename_i member
      have unlinked : async ∉ asyncs.headAsync.erase async := by
        have once := orderly.once async
        rw [List.count_append] at once
        rw [← List.count_eq_zero, List.count_erase_self]
        omega
      have waits : ∀ other, other ∈ asyncs.headAsync.erase async ∨ other ∈ batch asyncs →
          other ∈ asyncs.headAsync ∨ other ∈ batch asyncs ∨ other = asyncs.count := by
        rintro other (member | member)
        · exact .inl (List.mem_of_mem_erase member)
        · exact .inr (.inl member)
      split at destroy
      · cases destroy
      · cases destroy
        refine ⟨[.destroy async, .clear async], by simp [Asyncs.enter, Asyncs.emit], Nat.le_refl _, by simp, waits,
          fun _ => .inl, fun other asked => ?_⟩
        have same : other = async := by simpa using asked
        subst same
        exact ⟨rfl, created, unlinked, rfl, by simp⟩
      · cases destroy
        refine ⟨[.destroy async, .free async], by simp [Asyncs.free, Asyncs.emit], Nat.le_refl _, by simp, waits,
          fun _ => .inl, fun other asked => ?_⟩
        have same : other = async := by simpa using asked
        subst same
        exact ⟨rfl, created, unlinked, rfl, by simp⟩
    · rename_i absent
      cases destroy
      refine ⟨[.destroy async], rfl, Nat.le_refl _, by simp, fun _ waits => waits.imp_right .inl, fun _ => .inl,
        fun other asked => ?_⟩
      have same : other = async := by simpa using asked
      subst same
      exact ⟨rfl, created, absent, rfl, by simp⟩

theorem asyncStep_turns {asyncs next : Asyncs} {move : AsyncMove} (orderly : InPlace asyncs)
    (step : asyncStep asyncs move = .ok next) : ∃ events, Turns asyncs move next events := by
  cases move with
  | async =>
    cases step
    refine ⟨[.create asyncs.count], rfl, by simp [Asyncs.apeAsync, Asyncs.emit], by simp, fun other waits => ?_,
      fun _ => .inl, by simp⟩
    rcases waits with member | member
    · rcases List.mem_cons.mp member with same | head
      · exact .inr (.inr same)
      · exact .inl head
    · exact .inr (.inl member)
  | setClearfunc async clearfunc =>
    simp only [asyncStep, Asyncs.apeAsyncSetclearfunc] at step
    split at step
    · cases step
    · cases step
      exact ⟨[.set async clearfunc], rfl, by simp [Asyncs.emit], by simp, fun other waits => waits.imp_right .inl,
        fun _ => .inl, by simp⟩
  | destroy async => exact destroy_turns orderly step
  | process =>
    obtain ⟨events, log, count, head, runs, destroys, later, kept, -⟩ := runNext_turns step
    refine ⟨events, log, by simp [count], fun async member => .inl (runs async member), fun async waits => ?_,
      fun async member => .inl (kept async member), fun async member => absurd member (destroys async)⟩
    rw [head] at waits
    rcases waits with waits | waits
    · simp at waits
    · rcases later async waits with hand | waits
      · exact .inl hand
      · exact .inr (.inl waits)
  | deleteAll =>
    obtain ⟨events, log, count, head, same, quiet⟩ := deleteNext_turns step
    refine ⟨events, log, by simp [count], fun async member => absurd member (quiet async).1, fun async waits => ?_,
      fun async member => .inl ?_, fun async member => absurd member (quiet async).2⟩
    · rw [head, same] at waits
      rcases waits with waits | waits
      · simp at waits
      · exact .inr (.inl waits)
    · rw [same]
      exact member
  | resume => exact resume_turns step

/-- No destroyed async is pending any more. -/
structure Cancels (asyncs : Asyncs) : Prop where
  orderly : InPlace asyncs
  cancelled : ∀ async, .destroy async ∈ asyncs.log →
    async < asyncs.count ∧ async ∉ asyncs.headAsync ∧ async ∉ batch asyncs
  stays : StaysCancelled asyncs

theorem asyncStep_cancels {asyncs next : Asyncs} {move : AsyncMove} (cancels : Cancels asyncs)
    (spares : SparesBatch asyncs move) (step : asyncStep asyncs move = .ok next) : Cancels next := by
  obtain ⟨events, turns⟩ := asyncStep_turns cancels.orderly step
  refine ⟨asyncStep_inPlace cancels.orderly step, ?_, ?_⟩
  · intro async member
    rw [turns.log, List.mem_append] at member
    rcases member with earlier | now
    · obtain ⟨created, unlinked, spared⟩ := cancels.cancelled async earlier
      have gone : ¬ (async ∈ next.headAsync ∨ async ∈ batch next) := by
        intro waits
        rcases turns.waits async waits with head | hand | new
        · exact unlinked head
        · exact spared hand
        · omega
      exact ⟨Nat.lt_of_lt_of_le created turns.count, fun head => gone (.inl head), fun hand => gone (.inr hand)⟩
    · obtain ⟨asked, created, unlinked, same, -⟩ := turns.destroys async now
      refine ⟨Nat.lt_of_lt_of_le created turns.count, unlinked, ?_⟩
      rw [same]
      exact spares async asked
  · rw [StaysCancelled, turns.log, List.pairwise_append]
    refine ⟨cancels.stays, ?_, ?_⟩
    · apply List.pairwise_of_forall_mem_list
      rintro earlier asked later now async rfl rfl
      exact (turns.destroys async asked).2.2.2.2 async now
    · rintro earlier asked later now async rfl rfl
      obtain ⟨-, unlinked, spared⟩ := cancels.cancelled async asked
      rcases turns.runs async now with head | hand
      · exact unlinked head
      · exact spared hand

theorem log_grows {asyncs last : Asyncs} {moves : List AsyncMove} (orderly : InPlace asyncs)
    (ran : runAll asyncStep asyncs moves = .ok last) : ∃ events, last.log = asyncs.log ++ events := by
  induction moves generalizing asyncs with
  | nil =>
    cases ran
    exact ⟨[], (List.append_nil _).symm⟩
  | cons move moves ih =>
    obtain ⟨next, step, others⟩ := runAll_first ran
    obtain ⟨events, turns⟩ := asyncStep_turns orderly step
    obtain ⟨more, log⟩ := ih (asyncStep_inPlace orderly step) others
    exact ⟨events ++ more, by rw [log, turns.log, List.append_assoc]⟩

/-- `APE_async_destroy` does not find what `process_async` has in hand. -/
theorem destroy_hand {asyncs : Asyncs} {async : Nat} (orderly : InPlace asyncs) (hand : async ∈ batch asyncs) :
    asyncs.apeAsyncDestroy async = .ok (asyncs.emit (.destroy async)) := by
  obtain ⟨frame, member, waits⟩ := List.mem_flatMap.mp hand
  have rest : async ∈ asyncs.frames.flatMap AsyncFrame.rest := by
    apply List.mem_flatMap.mpr ⟨frame, member, ?_⟩
    cases frame with
    | callback | clearing => exact waits
    | destroying | deleting => cases waits
  have created : async < asyncs.count := Lives.exists_ orderly (by simp [rest])
  have absent : async ∉ asyncs.headAsync := by
    have once := orderly.once async
    have held := List.count_pos_iff.mpr rest
    rw [List.count_append] at once
    rw [← List.count_eq_zero]
    omega
  rw [Asyncs.apeAsyncDestroy, if_neg (by omega)]
  exact if_neg absent

/-- What `process_async` has in hand is run before it returns. -/
theorem batch_runs {asyncs last : Asyncs} {moves : List AsyncMove} {async : Nat} (orderly : InPlace asyncs)
    (ran : runAll asyncStep asyncs moves = .ok last) (hand : async ∈ batch asyncs) (returned : last.frames = []) :
    ∃ events, last.log = asyncs.log ++ events ∧ .run async ∈ events := by
  induction moves generalizing asyncs with
  | nil =>
    cases ran
    rw [batch, returned] at hand
    cases hand
  | cons move moves ih =>
    obtain ⟨next, step, others⟩ := runAll_first ran
    obtain ⟨events, turns⟩ := asyncStep_turns orderly step
    rcases turns.kept async hand with still | run
    · obtain ⟨more, log, run⟩ := ih (asyncStep_inPlace orderly step) others still
      exact ⟨events ++ more, by rw [log, turns.log, List.append_assoc], List.mem_append_right _ run⟩
    · obtain ⟨more, log⟩ := log_grows (asyncStep_inPlace orderly step) others
      exact ⟨events ++ more, by rw [log, turns.log, List.append_assoc], List.mem_append_left _ run⟩

/-- A destroyed async stays cancelled as long as none is destroyed that `process_async` has in hand, and in no run that
    destroys one and comes to its end. -/
theorem destroyed_stays_cancelled (moves : List AsyncMove) :
    (EachStep asyncStep {} moves SparesBatch → Throughout asyncStep {} moves StaysCancelled) ∧
      ∀ last, runAll asyncStep {} moves = .ok last → last.frames = [] →
        Throughout asyncStep {} moves StaysCancelled → EachStep asyncStep {} moves SparesBatch := by
  constructor
  · intro each before after state split reached
    have fresh : Cancels {} := ⟨fresh_inPlace, fun _ member => absurd member (by simp), List.Pairwise.nil⟩
    have cancels := throughout_of_each fresh
      (fun _ _ _ cancels spares step => asyncStep_cancels cancels spares step) each
    exact (cancels before after state split reached).stays
  · rintro last ran returned throughout before move after state rfl reached async rfl hand
    have orderly := reached_inPlace reached
    have asked := destroy_hand orderly hand
    rw [runAll_append, reached] at ran
    obtain ⟨next, step, others⟩ := runAll_first ran
    cases asked.symm.trans step
    obtain ⟨events, log, run⟩ := batch_runs (@asyncStep_inPlace state _ (.destroy async) orderly asked) others hand returned
    have whole : runAll asyncStep {} (before ++ .destroy async :: after) = .ok last := by
      rw [runAll_append, reached]
      exact ran
    have stays := throughout _ [] last (List.append_nil _).symm whole
    rw [StaysCancelled, log] at stays
    have before_run := (List.pairwise_append.mp stays).2.2
    exact before_run (.destroy async) (by simp [Asyncs.emit]) (.run async) run async rfl rfl

/-- Of two pending asyncs the one that runs first destroys the other one, which is run nevertheless. -/
theorem destroyed_runs :
    ¬ Throughout asyncStep {} [.async, .async, .process, .destroy 0, .resume] StaysCancelled := by
  intro throughout
  have stays := throughout _ [] _ (List.append_nil _).symm rfl
  simp [StaysCancelled, Asyncs.apeAsync, Asyncs.emit, Asyncs.enter, Asyncs.free] at stays

end Cancelled

end ZapeProof
