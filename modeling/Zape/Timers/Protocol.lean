import Zape.Machine.Runs
import Zape.Timers.Async

/-! The life of an async: from `APE_async` to its release, whoever releases it. -/
namespace ZapeProof

open Machine ZapeModel

section Life

/-- Where an async is in its life, while it waits and runs with whether it has a clear function. -/
inductive Phase
  | absent
  | pending (clearfunc : Bool)
  | running (clearfunc : Bool)
  | clearing
  | freed
  deriving DecidableEq, Repr

def AsyncEvent.about : AsyncEvent → Nat
  | .create async | .set async _ | .destroy async | .run async | .clear async | .free async => async

/-- What may happen to an async next: the callback runs once and only while it is pending, and it is released once,
    after its clear function if it has one and without a call of it if it has none. -/
def Phase.next : Phase → AsyncEvent → Option Phase
  | .absent, .create _ => some (.pending false)
  | .pending _, .set _ clearfunc => some (.pending clearfunc)
  | .running _, .set _ clearfunc => some (.running clearfunc)
  | .clearing, .set _ _ => some .clearing
  | .pending clearfunc, .run _ => some (.running clearfunc)
  | .pending true, .clear _ | .running true, .clear _ => some .clearing
  | .pending false, .free _ | .running false, .free _ | .clearing, .free _ => some .freed
  | .absent, _ => none
  | phase, .destroy _ => some phase
  | _, _ => none

def life (async : Nat) (log : List AsyncEvent) : Option Phase :=
  (log.filter fun event => AsyncEvent.about event = async).foldlM Phase.next .absent

theorem life_emit (asyncs : Asyncs) (async : Nat) (event : AsyncEvent) :
    life async (asyncs.emit event).log =
      if AsyncEvent.about event = async then (life async asyncs.log).bind (·.next event) else life async asyncs.log := by
  simp only [Asyncs.emit, life, List.filter_append]
  by_cases same : AsyncEvent.about event = async
  · simp [same]
  · simp [same]

def AsyncFrame.rest : AsyncFrame → List Nat
  | .callback _ rest | .clearing _ rest | .deleting _ rest => rest
  | .destroying _ => []

def AsyncFrame.running : AsyncFrame → List Nat
  | .callback cur _ => [cur]
  | .clearing _ _ | .destroying _ | .deleting _ _ => []

def AsyncFrame.clears : AsyncFrame → List Nat
  | .callback _ _ => []
  | .clearing async _ | .destroying async | .deleting async _ => [async]

/-- The asyncs that are there, each in one list with its memory and its life. -/
structure Lives (asyncs : Asyncs) (waiting running clearing : List Nat) : Prop where
  once : ∀ async, waiting.count async + running.count async + clearing.count async ≤ 1
  below : ∀ async, asyncs.count ≤ async → waiting.count async + running.count async + clearing.count async = 0
  waits : ∀ async ∈ waiting, ∃ clearfunc, asyncs.node async = some clearfunc ∧
    life async asyncs.log = some (.pending clearfunc)
  runs : ∀ async ∈ running, ∃ clearfunc, asyncs.node async = some clearfunc ∧
    life async asyncs.log = some (.running clearfunc)
  clears : ∀ async ∈ clearing, asyncs.node async ≠ none ∧ life async asyncs.log = some .clearing
  gone : ∀ async, async ∉ waiting → async ∉ running → async ∉ clearing →
    asyncs.node async = none ∧ life async asyncs.log = some (if async < asyncs.count then .freed else .absent)

def InPlace (asyncs : Asyncs) : Prop :=
  Lives asyncs (asyncs.headAsync ++ asyncs.frames.flatMap AsyncFrame.rest)
    (asyncs.frames.flatMap AsyncFrame.running) (asyncs.frames.flatMap AsyncFrame.clears)

variable {asyncs next : Asyncs} {waiting running clearing waiting' running' clearing' : List Nat} {async : Nat}

/-- Only one async changes. -/
theorem Lives.change (lives : Lives asyncs waiting running clearing) (async : Nat) (exists_ : async < asyncs.count)
    (count : next.count = asyncs.count)
    (others : ∀ other ≠ async, next.node other = asyncs.node other ∧ life other next.log = life other asyncs.log)
    (places : ∀ other ≠ async, waiting'.count other = waiting.count other ∧ running'.count other = running.count other ∧
      clearing'.count other = clearing.count other)
    (once : waiting'.count async + running'.count async + clearing'.count async ≤ 1)
    (waits : async ∈ waiting' → ∃ clearfunc, next.node async = some clearfunc ∧
      life async next.log = some (.pending clearfunc))
    (runs : async ∈ running' → ∃ clearfunc, next.node async = some clearfunc ∧
      life async next.log = some (.running clearfunc))
    (clears : async ∈ clearing' → next.node async ≠ none ∧ life async next.log = some .clearing)
    (gone : async ∉ waiting' → async ∉ running' → async ∉ clearing' →
      next.node async = none ∧ life async next.log = some .freed) :
    Lives next waiting' running' clearing' where
  once other := by
    by_cases same : other = async
    · rw [same]
      exact once
    · obtain ⟨first, second, third⟩ := places other same
      rw [first, second, third]
      exact lives.once other
  below other beyond := by
    have different : other ≠ async := by omega
    obtain ⟨first, second, third⟩ := places other different
    rw [first, second, third]
    exact lives.below other (by omega)
  waits other member := by
    by_cases same : other = async
    · rw [same] at member ⊢
      exact waits member
    · rw [(others other same).1, (others other same).2]
      apply lives.waits other
      rwa [← List.count_pos_iff, ← (places other same).1, List.count_pos_iff]
  runs other member := by
    by_cases same : other = async
    · rw [same] at member ⊢
      exact runs member
    · rw [(others other same).1, (others other same).2]
      apply lives.runs other
      rwa [← List.count_pos_iff, ← (places other same).2.1, List.count_pos_iff]
  clears other member := by
    by_cases same : other = async
    · rw [same] at member ⊢
      exact clears member
    · rw [(others other same).1, (others other same).2]
      apply lives.clears other
      rwa [← List.count_pos_iff, ← (places other same).2.2, List.count_pos_iff]
  gone other first second third := by
    by_cases same : other = async
    · rw [same] at first second third ⊢
      rw [count, if_pos exists_]
      exact gone first second third
    · rw [(others other same).1, (others other same).2, count]
      rw [← List.count_eq_zero] at first second third
      rw [(places other same).1] at first
      rw [(places other same).2.1] at second
      rw [(places other same).2.2] at third
      exact lives.gone other (List.count_eq_zero.mp first) (List.count_eq_zero.mp second) (List.count_eq_zero.mp third)

theorem Lives.congr (lives : Lives asyncs waiting running clearing)
    (places : ∀ async, waiting'.count async = waiting.count async ∧ running'.count async = running.count async ∧
      clearing'.count async = clearing.count async)
    (node : next.node = asyncs.node) (count : next.count = asyncs.count)
    (alive : ∀ async, life async next.log = life async asyncs.log) :
    Lives next waiting' running' clearing' := by
  have there : ∀ async, (async ∈ waiting' ↔ async ∈ waiting) ∧ (async ∈ running' ↔ async ∈ running) ∧
      (async ∈ clearing' ↔ async ∈ clearing) := by
    intro async
    obtain ⟨first, second, third⟩ := places async
    simp only [← List.count_pos_iff, first, second, third, and_self]
  refine ⟨?_, ?_, ?_, ?_, ?_, ?_⟩
  · intro async
    obtain ⟨first, second, third⟩ := places async
    rw [first, second, third]
    exact lives.once async
  · intro async beyond
    obtain ⟨first, second, third⟩ := places async
    rw [first, second, third]
    exact lives.below async (count ▸ beyond)
  · intro async member
    rw [node, alive]
    exact lives.waits async ((there async).1.mp member)
  · intro async member
    rw [node, alive]
    exact lives.runs async ((there async).2.1.mp member)
  · intro async member
    rw [node, alive]
    exact lives.clears async ((there async).2.2.mp member)
  · intro async first second third
    rw [node, alive, count]
    exact lives.gone async (mt (there async).1.mpr first) (mt (there async).2.1.mpr second)
      (mt (there async).2.2.mpr third)

theorem Lives.exists_ (lives : Lives asyncs waiting running clearing)
    (held : async ∈ waiting ++ running ++ clearing) : async < asyncs.count := by
  by_contra beyond
  have none := lives.below async (Nat.le_of_not_lt beyond)
  rw [← List.count_pos_iff, List.count_append, List.count_append] at held
  omega

theorem life_other {event : AsyncEvent} {other : Nat} (different : other ≠ AsyncEvent.about event) :
    life other (asyncs.emit event).log = life other asyncs.log := by
  rw [life_emit, if_neg different.symm]

theorem life_same {event : AsyncEvent} {phase later : Phase} (about : AsyncEvent.about event = async)
    (alive : life async asyncs.log = some phase) (follows : phase.next event = some later) :
    life async (asyncs.emit event).log = some later := by
  rw [life_emit, if_pos about, alive]
  exact follows

theorem count_apart {other : Nat} (different : other ≠ async) (list : List Nat) :
    (async :: list).count other = list.count other := List.count_cons_of_ne different.symm

theorem Lives.start (lives : Lives asyncs (async :: waiting) running clearing) :
    Lives (asyncs.emit (.run async)) waiting (async :: running) clearing := by
  have once := lives.once async
  rw [List.count_cons_self] at once
  have only : async ∉ waiting ∧ async ∉ running ∧ async ∉ clearing := by
    simp only [← List.count_eq_zero]
    omega
  obtain ⟨clearfunc, node, alive⟩ := lives.waits async List.mem_cons_self
  have runs : life async (asyncs.emit (.run async)).log = some (.running clearfunc) := life_same rfl alive rfl
  refine lives.change async (lives.exists_ (by simp)) rfl (fun other different => ⟨rfl, life_other different⟩)
    (fun other different => ?_) ?_ (fun member => absurd member only.1)
    (fun _ => ⟨clearfunc, node, runs⟩) (fun member => absurd member only.2.2)
    (fun _ absent => absurd List.mem_cons_self absent)
  · simp only [count_apart different, and_self]
  · rw [List.count_cons_self]
    omega

/-- An async that its clearfunc is called for leaves whatever list it was in. -/
theorem Lives.clear {phase : Phase} (lives : Lives asyncs waiting' running' clearing) (exists_ : async < asyncs.count)
    (set : asyncs.node async = some true) (alive : life async asyncs.log = some phase)
    (begins : phase.next (.clear async) = some .clearing)
    (others : ∀ other ≠ async, waiting.count other = waiting'.count other ∧ running.count other = running'.count other)
    (left : waiting.count async + running.count async + clearing.count async = 0) :
    Lives (asyncs.emit (.clear async)) waiting running (async :: clearing) := by
  have only : async ∉ waiting ∧ async ∉ running := by
    simp only [← List.count_eq_zero]
    omega
  have clears : life async (asyncs.emit (.clear async)).log = some .clearing := life_same rfl alive begins
  refine lives.change async exists_ rfl (fun other different => ⟨rfl, life_other different⟩)
    (fun other different => ?_) ?_ (fun member => absurd member only.1) (fun member => absurd member only.2)
    (fun _ => ⟨by simp [Asyncs.emit, set], clears⟩) (fun _ _ absent => absurd List.mem_cons_self absent)
  · exact ⟨(others other different).1, (others other different).2, count_apart different clearing⟩
  · rw [List.count_cons_self]
    omega

theorem Lives.clear_running (lives : Lives asyncs waiting (async :: running) clearing)
    (set : asyncs.node async = some true) :
    Lives (asyncs.emit (.clear async)) waiting running (async :: clearing) := by
  have once := lives.once async
  rw [List.count_cons_self] at once
  obtain ⟨clearfunc, node, alive⟩ := lives.runs async List.mem_cons_self
  rw [set] at node
  cases node
  apply lives.clear (lives.exists_ (by simp)) set alive rfl
  · intro other different
    exact ⟨rfl, (count_apart different running).symm⟩
  · omega

theorem Lives.clear_waiting (lives : Lives asyncs (async :: waiting) running clearing)
    (set : asyncs.node async = some true) :
    Lives (asyncs.emit (.clear async)) waiting running (async :: clearing) := by
  have once := lives.once async
  rw [List.count_cons_self] at once
  obtain ⟨clearfunc, node, alive⟩ := lives.waits async List.mem_cons_self
  rw [set] at node
  cases node
  apply lives.clear (lives.exists_ (by simp)) set alive rfl
  · intro other different
    exact ⟨(count_apart different waiting).symm, rfl⟩
  · omega

/-- An async that ends its life leaves whatever list it was in. -/
theorem Lives.free {phase : Phase} (lives : Lives asyncs waiting running clearing) (exists_ : async < asyncs.count)
    (alive : life async asyncs.log = some phase) (ends : phase.next (.free async) = some .freed)
    (others : ∀ other ≠ async, waiting'.count other = waiting.count other ∧ running'.count other = running.count other ∧
      clearing'.count other = clearing.count other)
    (left : waiting'.count async + running'.count async + clearing'.count async = 0) :
    Lives (asyncs.free async) waiting' running' clearing' := by
  have only : async ∉ waiting' ∧ async ∉ running' ∧ async ∉ clearing' := by
    simp only [← List.count_eq_zero]
    omega
  refine lives.change async exists_ rfl (fun other different => ⟨?_, ?_⟩) others (by omega)
    (fun member => absurd member only.1) (fun member => absurd member only.2.1)
    (fun member => absurd member only.2.2) (fun _ _ _ => ⟨?_, ?_⟩)
  · simp [Asyncs.free, Asyncs.emit, Function.update_of_ne different]
  · exact life_other different
  · simp [Asyncs.free, Asyncs.emit]
  · exact life_same rfl alive ends

theorem Lives.free_running (lives : Lives asyncs waiting (async :: running) clearing)
    (unset : asyncs.node async = some false) : Lives (asyncs.free async) waiting running clearing := by
  have once := lives.once async
  rw [List.count_cons_self] at once
  obtain ⟨clearfunc, node, alive⟩ := lives.runs async List.mem_cons_self
  rw [unset] at node
  cases node
  apply lives.free (lives.exists_ (by simp)) alive rfl
  · intro other different
    simp only [count_apart different, and_self]
  · omega

theorem Lives.free_waiting (lives : Lives asyncs (async :: waiting) running clearing)
    (unset : asyncs.node async = some false) : Lives (asyncs.free async) waiting running clearing := by
  have once := lives.once async
  rw [List.count_cons_self] at once
  obtain ⟨clearfunc, node, alive⟩ := lives.waits async List.mem_cons_self
  rw [unset] at node
  cases node
  apply lives.free (lives.exists_ (by simp)) alive rfl
  · intro other different
    simp only [count_apart different, and_self]
  · omega

theorem Lives.free_cleared (lives : Lives asyncs waiting running (async :: clearing)) :
    Lives (asyncs.free async) waiting running clearing := by
  have once := lives.once async
  rw [List.count_cons_self] at once
  have alive := (lives.clears async List.mem_cons_self).2
  apply lives.free (lives.exists_ (by simp)) alive rfl
  · intro other different
    simp only [count_apart different, and_self]
  · omega

theorem Lives.create (lives : Lives asyncs waiting running clearing) :
    Lives asyncs.apeAsync (asyncs.count :: waiting) running clearing := by
  have unused := lives.below asyncs.count (Nat.le_refl _)
  have only : asyncs.count ∉ waiting ∧ asyncs.count ∉ running ∧ asyncs.count ∉ clearing := by
    simp only [← List.count_eq_zero]
    omega
  have absent := (lives.gone asyncs.count only.1 only.2.1 only.2.2).2
  rw [if_neg (by omega)] at absent
  have kept : ∀ other ≠ asyncs.count, asyncs.apeAsync.node other = asyncs.node other ∧
      life other asyncs.apeAsync.log = life other asyncs.log := by
    intro other different
    refine ⟨?_, life_other different⟩
    simp [Asyncs.apeAsync, Asyncs.emit, Function.update_of_ne different]
  refine ⟨?_, ?_, ?_, ?_, ?_, ?_⟩
  · intro other
    by_cases same : other = asyncs.count
    · rw [same, List.count_cons_self]
      omega
    · rw [count_apart same]
      exact lives.once other
  · intro other beyond
    have later : asyncs.count + 1 ≤ other := beyond
    rw [count_apart (by omega)]
    exact lives.below other (by omega)
  · intro other member
    by_cases same : other = asyncs.count
    · rw [same]
      refine ⟨false, by simp [Asyncs.apeAsync, Asyncs.emit], ?_⟩
      exact life_same rfl absent rfl
    · rw [(kept other same).1, (kept other same).2]
      exact lives.waits other ((List.mem_cons.mp member).resolve_left same)
  · intro other member
    have different : other ≠ asyncs.count := by
      rintro rfl
      exact only.2.1 member
    rw [(kept other different).1, (kept other different).2]
    exact lives.runs other member
  · intro other member
    have different : other ≠ asyncs.count := by
      rintro rfl
      exact only.2.2 member
    rw [(kept other different).1, (kept other different).2]
    exact lives.clears other member
  · intro other first second third
    have different : other ≠ asyncs.count := List.ne_of_not_mem_cons first
    rw [(kept other different).1, (kept other different).2]
    have gone := lives.gone other (List.not_mem_of_not_mem_cons first) second third
    refine ⟨gone.1, gone.2.trans ?_⟩
    have bound : other < asyncs.apeAsync.count ↔ other < asyncs.count := by
      show other < asyncs.count + 1 ↔ _
      omega
    simp only [bound]

theorem Lives.set (lives : Lives asyncs waiting running clearing) {old : Bool} (there : asyncs.node async = some old)
    (clearfunc : Bool) :
    Lives ({ asyncs with node := Function.update asyncs.node async (some clearfunc) }.emit (.set async clearfunc))
      waiting running clearing := by
  have held : async ∈ waiting ++ running ++ clearing := by
    by_contra absent
    simp only [List.mem_append, not_or] at absent
    have gone := (lives.gone async absent.1.1 absent.1.2 absent.2).1
    rw [gone] at there
    cases there
  refine lives.change async (lives.exists_ held) rfl (fun other different => ⟨?_, life_other different⟩)
    (fun _ _ => ⟨rfl, rfl, rfl⟩) (lives.once async) ?_ ?_ ?_ ?_
  · simp [Asyncs.emit, Function.update_of_ne different]
  · intro member
    obtain ⟨_, _, alive⟩ := lives.waits async member
    exact ⟨clearfunc, by simp [Asyncs.emit], life_same rfl alive rfl⟩
  · intro member
    obtain ⟨_, _, alive⟩ := lives.runs async member
    exact ⟨clearfunc, by simp [Asyncs.emit], life_same rfl alive rfl⟩
  · intro member
    exact ⟨by simp [Asyncs.emit], life_same rfl (lives.clears async member).2 rfl⟩
  · intro first second third
    simp [first, second, third] at held

theorem Lives.asked (lives : Lives asyncs waiting running clearing) (exists_ : async < asyncs.count) :
    Lives (asyncs.emit (.destroy async)) waiting running clearing := by
  refine lives.congr (fun _ => ⟨rfl, rfl, rfl⟩) rfl rfl (fun other => ?_)
  by_cases same : other = async
  · subst same
    by_cases waits : other ∈ waiting
    · obtain ⟨_, _, alive⟩ := lives.waits other waits
      rw [alive]
      exact life_same rfl alive rfl
    · by_cases runs : other ∈ running
      · obtain ⟨_, _, alive⟩ := lives.runs other runs
        rw [alive]
        exact life_same rfl alive rfl
      · by_cases clears : other ∈ clearing
        · have alive := (lives.clears other clears).2
          rw [alive]
          exact life_same rfl alive rfl
        · have alive := (lives.gone other waits runs clears).2
          rw [if_pos exists_] at alive
          rw [alive]
          exact life_same rfl alive rfl
  · exact life_other same

end Life

section Steps

variable {asyncs next : Asyncs} {waiting : List Nat} {async : Nat}

theorem hand_count (head hand rest : List Nat) (other : Nat) :
    (head ++ (hand ++ rest)).count other = (hand ++ (head ++ rest)).count other := by
  simp only [List.count_append]
  omega

theorem runNext_inPlace {hand : List Nat} (lives : Lives asyncs (hand ++ (asyncs.headAsync ++
      asyncs.frames.flatMap AsyncFrame.rest)) (asyncs.frames.flatMap AsyncFrame.running)
      (asyncs.frames.flatMap AsyncFrame.clears)) (run : asyncs.runNext hand = .ok next) : InPlace next := by
  cases hand with
  | nil =>
    cases run
    exact lives
  | cons cur ctmp =>
    rw [List.cons_append] at lives
    rw [Asyncs.runNext] at run
    split at run
    · cases run
    · cases run
      exact lives.start.congr (fun other => ⟨hand_count _ _ _ other, rfl, rfl⟩) rfl rfl (fun _ => rfl)

theorem deleteNext_inPlace {hand : List Nat} (lives : Lives asyncs (hand ++ (asyncs.headAsync ++
      asyncs.frames.flatMap AsyncFrame.rest)) (asyncs.frames.flatMap AsyncFrame.running)
      (asyncs.frames.flatMap AsyncFrame.clears)) (delete : asyncs.deleteNext hand = .ok next) : InPlace next := by
  cases hand with
  | nil =>
    cases delete
    exact lives
  | cons async tmp =>
    rw [List.cons_append] at lives
    rw [Asyncs.deleteNext] at delete
    split at delete
    · cases delete
    · cases delete
    · rename_i set
      cases delete
      exact (lives.clear_waiting set).congr (fun other => ⟨hand_count _ _ _ other, rfl, rfl⟩) rfl rfl (fun _ => rfl)

theorem resume_inPlace (orderly : InPlace asyncs) (resume : asyncs.resume = .ok next) : InPlace next := by
  unfold Asyncs.resume at resume
  unfold InPlace at orderly
  split at resume
  · cases resume
    rename_i idle
    rwa [InPlace]
  · rename_i frame frames stack
    rw [stack] at orderly
    cases frame with
    | callback cur ctmp =>
      simp only [List.flatMap_cons, AsyncFrame.rest, AsyncFrame.running, AsyncFrame.clears, List.nil_append,
        List.singleton_append] at orderly
      dsimp only at resume
      split at resume
      · cases resume
      · rename_i set
        cases resume
        refine (orderly.clear_running set).congr (fun other => ?_) rfl rfl (fun _ => rfl)
        simp only [Asyncs.enter, Asyncs.emit, List.flatMap_cons, AsyncFrame.rest, AsyncFrame.running,
          AsyncFrame.clears, List.count_append, List.nil_append, List.singleton_append, List.count_cons, and_self]
      · rename_i unset
        apply runNext_inPlace ?_ resume
        refine (orderly.free_running unset).congr (fun other => ⟨?_, rfl, rfl⟩) rfl rfl (fun _ => rfl)
        exact hand_count _ _ _ other
    | clearing cur ctmp =>
      simp only [List.flatMap_cons, AsyncFrame.rest, AsyncFrame.running, AsyncFrame.clears, List.nil_append,
        List.singleton_append] at orderly
      apply runNext_inPlace ?_ resume
      refine orderly.free_cleared.congr (fun other => ⟨?_, rfl, rfl⟩) rfl rfl (fun _ => rfl)
      exact hand_count _ _ _ other
    | destroying async =>
      simp only [List.flatMap_cons, AsyncFrame.rest, AsyncFrame.running, AsyncFrame.clears, List.nil_append,
        List.singleton_append] at orderly
      cases resume
      exact orderly.free_cleared.congr (fun other => ⟨rfl, rfl, rfl⟩) rfl rfl (fun _ => rfl)
    | deleting async tmp =>
      simp only [List.flatMap_cons, AsyncFrame.rest, AsyncFrame.running, AsyncFrame.clears, List.nil_append,
        List.singleton_append] at orderly
      apply deleteNext_inPlace ?_ resume
      refine orderly.free_cleared.congr (fun other => ⟨?_, rfl, rfl⟩) rfl rfl (fun _ => rfl)
      exact hand_count _ _ _ other

theorem destroy_inPlace (orderly : InPlace asyncs) (destroy : asyncs.apeAsyncDestroy async = .ok next) :
    InPlace next := by
  unfold Asyncs.apeAsyncDestroy at destroy
  split at destroy
  · cases destroy
    exact orderly
  · rename_i exists_
    have asked := Lives.asked orderly (Nat.lt_of_not_le exists_)
    dsimp only at destroy
    split at destroy
    · rename_i member
      have found : Lives { asyncs.emit (.destroy async) with headAsync := asyncs.headAsync.erase async }
          (async :: (asyncs.headAsync.erase async ++ asyncs.frames.flatMap AsyncFrame.rest))
          (asyncs.frames.flatMap AsyncFrame.running) (asyncs.frames.flatMap AsyncFrame.clears) := by
        refine asked.congr (fun other => ⟨?_, rfl, rfl⟩) rfl rfl (fun _ => rfl)
        have head : asyncs.headAsync.count other = (async :: asyncs.headAsync.erase async).count other :=
          (List.perm_cons_erase member).count_eq other
        rw [← List.cons_append, List.count_append, List.count_append, head]
      split at destroy
      · cases destroy
      · rename_i set
        cases destroy
        refine (found.clear_waiting set).congr (fun other => ?_) rfl rfl (fun _ => rfl)
        simp only [Asyncs.enter, Asyncs.emit, List.flatMap_cons, AsyncFrame.rest, AsyncFrame.running,
          AsyncFrame.clears, List.nil_append, List.singleton_append, and_self]
      · rename_i unset
        cases destroy
        exact (found.free_waiting unset).congr (fun other => ⟨rfl, rfl, rfl⟩) rfl rfl (fun _ => rfl)
    · cases destroy
      exact asked

theorem asyncStep_inPlace {move : AsyncMove} (orderly : InPlace asyncs) (step : asyncStep asyncs move = .ok next) :
    InPlace next := by
  cases move with
  | async =>
    cases step
    exact Lives.create orderly
  | setClearfunc async clearfunc =>
    simp only [asyncStep, Asyncs.apeAsyncSetclearfunc] at step
    split at step
    · cases step
    · rename_i there
      cases step
      exact Lives.set orderly there clearfunc
  | destroy async => exact destroy_inPlace orderly step
  | process =>
    apply runNext_inPlace ?_ step
    exact Lives.congr orderly (fun _ => ⟨rfl, rfl, rfl⟩) rfl rfl (fun _ => rfl)
  | deleteAll =>
    apply deleteNext_inPlace ?_ step
    exact Lives.congr orderly (fun _ => ⟨rfl, rfl, rfl⟩) rfl rfl (fun _ => rfl)
  | resume => exact resume_inPlace orderly step

theorem fresh_inPlace : InPlace {} where
  once _ := by simp
  below _ _ := by simp
  waits _ member := by simp at member
  runs _ member := by simp at member
  clears _ member := by simp at member
  gone _ _ _ _ := ⟨rfl, rfl⟩

theorem reached_inPlace {moves : List AsyncMove} (reached : runAll asyncStep {} moves = .ok asyncs) : InPlace asyncs := by
  apply @run_history _ _ _ asyncStep {} asyncs moves (fun _ => InPlace) fresh_inPlace ?_ moves []
    (List.append_nil moves).symm reached
  intro _ _ _ _ _ _ _ orderly step
  exact asyncStep_inPlace orderly step

end Steps

end ZapeProof
