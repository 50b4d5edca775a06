import Mathlib.Data.List.Perm.Basic
import Zape.Ape.Moves

/-! The life of the record of a lookup: asked for, answered, and freed by a timer, or at once if it was invalidated. -/
namespace ZapeProof

open Machine ZapeModel

/-- Whether the record is done and freed, the functions and the timers that hold it, how often it was freed, and how often
    its callback was called. -/
structure QueryAccount where
  record : Option (Bool × Bool)
  answers : Nat
  timers : Nat
  frees : Nat
  calls : Nat

def accountOf (ape : Ape) (q : Nat) : QueryAccount where
  record := ape.queries[q]?.map fun params => (params.done, params.freed)
  answers := ape.frames.count (.answer q)
  timers := ape.timers.count (.paramsFree q)
  frees := ape.log.count (.paramsFree q)
  calls := ape.log.count (.called q)

/-- The accounts of a record in its life. -/
inductive QueryLife : QueryAccount → Prop
  | unasked : QueryLife { record := none, answers := 0, timers := 0, frees := 0, calls := 0 }
  | waiting : QueryLife { record := some (false, false), answers := 0, timers := 0, frees := 0, calls := 0 }
  | answered : QueryLife { record := some (true, false), answers := 1, timers := 0, frees := 0, calls := 1 }
  | scheduled : QueryLife { record := some (true, false), answers := 0, timers := 1, frees := 0, calls := 1 }
  | freed (calls : Nat) (once : calls ≤ 1) :
    QueryLife { record := some (true, true), answers := 0, timers := 0, frees := 1, calls }

section Life

variable {account : QueryAccount}

theorem life_once (life : QueryLife account) : account.frees ≤ 1 ∧ account.calls ≤ 1 := by
  cases life with
  | unasked => exact ⟨Nat.zero_le 1, Nat.zero_le 1⟩
  | waiting => exact ⟨Nat.zero_le 1, Nat.zero_le 1⟩
  | answered => exact ⟨Nat.zero_le 1, Nat.le_refl 1⟩
  | scheduled => exact ⟨Nat.zero_le 1, Nat.le_refl 1⟩
  | freed calls once => exact ⟨Nat.le_refl 1, once⟩

/-- A record that is done was freed, or something is about to free it. -/
theorem life_ends {freed : Bool} (life : QueryLife account) (done : account.record = some (true, freed)) :
    account.answers + account.timers + account.frees = 1 := by
  cases life with
  | unasked => cases done
  | waiting => cases done
  | answered => rfl
  | scheduled => rfl
  | freed => rfl

theorem life_unasked (life : QueryLife account) (absent : account.record = none) :
    account = { record := none, answers := 0, timers := 0, frees := 0, calls := 0 } := by
  cases life with
  | unasked => rfl
  | _ => cases absent

theorem life_waiting {freed : Bool} (life : QueryLife account) (asked : account.record = some (false, freed)) :
    account = { record := some (false, false), answers := 0, timers := 0, frees := 0, calls := 0 } := by
  cases life with
  | waiting => rfl
  | _ => cases asked

theorem life_answered (life : QueryLife account) (answers : account.answers ≠ 0) :
    account = { record := some (true, false), answers := 1, timers := 0, frees := 0, calls := 1 } := by
  cases life with
  | answered => rfl
  | _ => exact absurd rfl answers

theorem life_scheduled (life : QueryLife account) (timers : account.timers ≠ 0) :
    account = { record := some (true, false), answers := 0, timers := 1, frees := 0, calls := 1 } := by
  cases life with
  | scheduled => rfl
  | _ => exact absurd rfl timers

end Life

section Same

variable {ape next : Ape} {q i : Nat}

theorem account_log {events : List ApeEvent} (unfreed : .paramsFree q ∉ events) (uncalled : .called q ∉ events) :
    accountOf { ape with log := ape.log ++ events } q = accountOf ape q := by
  rw [accountOf, List.count_append, List.count_append, List.count_eq_zero.mpr unfreed, List.count_eq_zero.mpr uncalled]
  rfl

theorem account_enter {frames : List ApeFrame} (others : .answer q ∉ frames) :
    accountOf (ape.enter frames) q = accountOf ape q := by
  rw [accountOf, Ape.enter, List.count_append, List.count_eq_zero.mpr others, Nat.zero_add]
  rfl

theorem account_dispatch {async : ApeAsync} (other : async ≠ .paramsFree q) :
    accountOf (ape.dispatch async) q = accountOf ape q := by
  rw [accountOf, Ape.dispatch, List.count_cons_of_ne other]
  rfl

theorem account_register {fd : Int} {accepted : Bool} : accountOf (ape.register i fd accepted) q = accountOf ape q :=
  (@account_log (ape.withEvents _) q _ (by simp) (by simp)).trans rfl

theorem invalidated_record (state : Option Nat) :
    ((invalidated ape state)[q]?.map fun params => (params.done, params.freed)) =
      ape.queries[q]?.map fun params => (params.done, params.freed) := by
  cases state with
  | none => rfl
  | some k =>
    rw [invalidated, List.getElem?_modify, Option.map_eq_map, Option.map_map]
    congr 1
    funext params
    by_cases same : k = q <;> simp [same]

theorem account_closing {socket : NetSocket} {now : Bool} : accountOf (closingApe ape i socket now) q = accountOf ape q := by
  have frames : (closeFrames i now socket.callbacks.onDisconnect.isSome).count (.answer q) = 0 := by
    cases socket.callbacks.onDisconnect.isSome <;> simp [closeFrames]
  have freed : (offlineEvents i socket.callbacks.onDisconnect.isSome).count (.paramsFree q) = 0 := by
    cases socket.callbacks.onDisconnect.isSome <;> simp [offlineEvents]
  have called : (offlineEvents i socket.callbacks.onDisconnect.isSome).count (.called q) = 0 := by
    cases socket.callbacks.onDisconnect.isSome <;> simp [offlineEvents]
  rw [accountOf, closingApe, invalidated_record, List.count_append, List.count_append, List.count_append, frames, freed,
    called, Nat.zero_add]
  rfl

theorem account_close {now : Bool} (done : ape.apeSocketClose i now = .ok next) : accountOf next q = accountOf ape q := by
  obtain ⟨socket, -, -, ⟨-, rfl⟩ | ⟨-, rfl⟩⟩ := close_cases done
  · rfl
  · exact account_closing

theorem account_ready {dialing : Option Dialing} (done : ape.readyToConnect i dialing = .ok next) :
    accountOf next q = accountOf ape q := by
  obtain ⟨socket, -, -, outcome⟩ := ready_cases done
  have begins : accountOf (dialingApe ape i socket.state) q = accountOf ape q :=
    @account_log ape q [.dialed i socket.state] (by simp) (by simp)
  rcases outcome with ⟨-, closed⟩ | ⟨-, rfl⟩ | ⟨dialing, -, -, rfl⟩
  · exact (account_close closed).trans begins
  · exact begins
  · have started : ∀ f, accountOf (((dialingApe ape i socket.state).change i f).register i socket.fd dialing.accepted) q =
        accountOf ape q := fun f => account_register.trans begins
    apply @either_ape fun after => accountOf after q = accountOf ape q
    · exact (account_dispatch (by simp)).trans (started _)
    · exact started _

theorem account_shutdown {waits : Bool} (done : ape.apeSocketShutdown i waits = .ok next) :
    accountOf next q = accountOf ape q := by
  obtain ⟨socket, -, -, rfl | ⟨-, closed⟩ | ⟨-, -, closed⟩ | ⟨-, -, rfl⟩⟩ := shutdown_cases done
  · rfl
  · exact account_close closed
  · exact (account_close closed).trans rfl
  · exact account_dispatch (by simp)

end Same

section Steps

variable {ape next : Ape} {q : Nat}

/-- The record is freed, once it was scheduled or if it was invalidated. -/
theorem account_freed {params : DnsQuery} (here : ape.queries[q]? = some params) :
    accountOf (ape.paramsFree q) q =
      { accountOf ape q with record := some (params.done, true), frees := (accountOf ape q).frees + 1 } := by
  rw [accountOf, Ape.paramsFree, List.getElem?_modify_eq, here, List.count_append, List.count_append]
  simp [accountOf]

theorem account_others {k : Nat} (apart : k ≠ q) : accountOf (ape.paramsFree k) q = accountOf ape q := by
  rw [accountOf, Ape.paramsFree, List.getElem?_modify_ne _ _ apart, List.count_append, List.count_append]
  simp [accountOf, apart]

theorem life_kept (life : QueryLife (accountOf ape q)) (same : accountOf next q = accountOf ape q) :
    QueryLife (accountOf next q) := by
  rwa [same]

/-- `ares_gethostbyname_cb` returns. -/
theorem life_answers {rest : List ApeFrame} (life : QueryLife (accountOf ape q)) (frames : ape.frames = .answer q :: rest) :
    QueryLife (accountOf (({ ape with frames := rest } : Ape).dispatch (.paramsFree q)) q) := by
  have holds := life_answered life (by simp [accountOf, frames])
  rw [accountOf, QueryAccount.mk.injEq, frames, List.count_cons_self] at holds
  obtain ⟨record, answers, timers, frees, calls⟩ := holds
  have left : accountOf (({ ape with frames := rest } : Ape).dispatch (.paramsFree q)) q =
      { record := some (true, false), answers := 0, timers := 1, frees := 0, calls := 1 } := by
    rw [accountOf, Ape.dispatch, List.count_cons_self, QueryAccount.mk.injEq]
    exact ⟨record, Nat.succ.inj answers, congrArg Nat.succ timers, frees, calls⟩
  rw [left]
  exact .scheduled

theorem account_popped {frame : ApeFrame} {rest : List ApeFrame} (frames : ape.frames = frame :: rest)
    (other : frame ≠ .answer q) : accountOf (poppedApe ape rest) q = accountOf ape q := by
  rw [accountOf, accountOf, frames, List.count_cons_of_ne other]
  rfl

theorem account_called {i : Nat} {set : Bool} : accountOf (calledApe ape i set) q = accountOf ape q := by
  apply @either_ape fun after => accountOf after q = accountOf ape q
  · exact (account_enter (by simp)).trans (account_log (by simp) (by simp))
  · rfl

theorem account_accepted {i : Nat} {server new : NetSocket} {fd : Int} {accepted : Bool} {results : List AcceptResult} :
    accountOf (acceptedApe ape i server new fd accepted results) q = accountOf ape q := by
  have client : accountOf ((Ape.emit { ape with sockets := ape.sockets ++
        [{ new with callbacks := server.callbacks, parent := some i, state := .online, type := .client }] }
      [.accepted i fd ape.sockets.length]).register ape.sockets.length new.fd accepted) q = accountOf ape q :=
    account_register.trans (account_log (by simp) (by simp))
  apply @either_ape fun after => accountOf after q = accountOf ape q
  · exact (account_enter (by simp)).trans ((account_log (by simp) (by simp)).trans client)
  · exact (account_enter (by simp)).trans client

theorem timers_count {k : Nat} {async : ApeAsync} (due : ape.timers[k]? = some async) (other : ApeAsync) :
    ape.timers.count other = (ape.timers.eraseIdx k).count other + if async = other then 1 else 0 := by
  obtain ⟨below, here⟩ := List.getElem?_eq_some_iff.mp due
  have counts := (List.getElem_cons_eraseIdx_perm below).count_eq other
  rw [here, List.count_cons] at counts
  simpa using counts.symm

/-- The timer that frees the record is due. -/
theorem life_frees {k : Nat} (life : QueryLife (accountOf ape q)) (due : ape.timers[k]? = some (.paramsFree q)) :
    QueryLife (accountOf (({ ape with timers := ape.timers.eraseIdx k } : Ape).paramsFree q) q) := by
  have count := timers_count due (.paramsFree q)
  rw [if_pos rfl] at count
  have holds := life_scheduled life (by simp [accountOf, count])
  rw [accountOf, QueryAccount.mk.injEq, count] at holds
  obtain ⟨record, answers, timers, frees, calls⟩ := holds
  obtain ⟨params, here, fields⟩ := Option.map_eq_some_iff.mp record
  have left : accountOf (({ ape with timers := ape.timers.eraseIdx k } : Ape).paramsFree q) q =
      { record := some (true, true), answers := 0, timers := 0, frees := 1, calls := 1 } := by
    have there : ({ ape with timers := ape.timers.eraseIdx k } : Ape).queries[q]? = some params := here
    rw [account_freed there, accountOf, QueryAccount.mk.injEq]
    exact ⟨by rw [(Prod.mk.inj fields).1], answers, Nat.succ.inj timers, congrArg Nat.succ frees, calls⟩
  rw [left]
  exact .freed 1 (Nat.le_refl 1)

theorem account_due {k : Nat} {async : ApeAsync} (due : ape.timers[k]? = some async) (other : async ≠ .paramsFree q) :
    accountOf (dueApe ape k) q = accountOf ape q := by
  have count := timers_count due (.paramsFree q)
  rw [if_neg other, Nat.add_zero] at count
  rw [accountOf, accountOf, count]
  rfl

theorem account_finished {k : Nat} (apart : k ≠ q) : accountOf (finishedApe ape k) q = accountOf ape q := by
  rw [accountOf, finishedApe, List.getElem?_modify_ne _ _ apart]
  rfl

/-- The record of a lookup that is not done, once it is. -/
theorem finished_record {params : DnsQuery} (life : QueryLife (accountOf ape q)) (query : ape.queries[q]? = some params)
    (undone : params.done = false) :
    (finishedApe ape q).queries[q]? = some { params with done := true } ∧ params.freed = false ∧
      accountOf (finishedApe ape q) q =
        { record := some (true, false), answers := 0, timers := 0, frees := 0, calls := 0 } := by
  have waiting : (accountOf ape q).record = some (false, params.freed) := by
    rw [accountOf, query, Option.map_some, undone]
  have holds := life_waiting life waiting
  rw [accountOf, QueryAccount.mk.injEq, query, Option.map_some] at holds
  obtain ⟨record, answers, timers, frees, calls⟩ := holds
  have there : (finishedApe ape q).queries[q]? = some { params with done := true } := by
    rw [finishedApe, List.getElem?_modify_eq, query]
    rfl
  have freed : params.freed = false := congrArg Prod.snd (Option.some.inj record)
  refine ⟨there, freed, ?_⟩
  rw [accountOf, there, Option.map_some, freed, QueryAccount.mk.injEq]
  exact ⟨rfl, answers, timers, frees, calls⟩

theorem life_abandoned {params : DnsQuery} (life : QueryLife (accountOf ape q)) (query : ape.queries[q]? = some params)
    (undone : params.done = false) : QueryLife (accountOf ((finishedApe ape q).paramsFree q) q) := by
  obtain ⟨there, -, finished⟩ := finished_record life query undone
  rw [account_freed there, finished]
  exact .freed 0 (Nat.zero_le 1)

theorem life_resolved {params : DnsQuery} (life : QueryLife (accountOf ape q)) (query : ape.queries[q]? = some params)
    (undone : params.done = false) :
    QueryLife (accountOf (((finishedApe ape q).emit [.called q]).enter [.answer q]) q) := by
  obtain ⟨-, -, finished⟩ := finished_record life query undone
  rw [accountOf, QueryAccount.mk.injEq] at finished
  obtain ⟨record, answers, timers, frees, calls⟩ := finished
  have left : accountOf (((finishedApe ape q).emit [.called q]).enter [.answer q]) q =
      { record := some (true, false), answers := 1, timers := 0, frees := 0, calls := 1 } := by
    rw [accountOf, QueryAccount.mk.injEq]
    refine ⟨record, ?_, timers, ?_, ?_⟩
    · exact List.count_cons_self.trans (congrArg Nat.succ answers)
    · exact List.count_append.trans (congrArg (· + 0) frees)
    · exact List.count_append.trans (by rw [calls]; simp)
  rw [left]
  exact .answered

/-- A name is looked up: the record is new. -/
theorem life_asked {i : Nat} (life : QueryLife (accountOf ape q)) :
    QueryLife (accountOf (({ ape with queries := ape.queries ++ [{ arg := i }] } : Ape).enter
      [.ask ape.queries.length i]) q) := by
  have rest : accountOf
      (({ ape with queries := ape.queries ++ [{ arg := i }] } : Ape).enter [.ask ape.queries.length i]) q =
      { accountOf ape q with
        record := (ape.queries ++ [{ arg := i }])[q]?.map fun params => (params.done, params.freed) } :=
    (account_enter (by simp)).trans rfl
  by_cases old : q < ape.queries.length
  · apply life_kept life
    refine rest.trans ?_
    rw [List.getElem?_append_left old]
    rfl
  · have absent : ape.queries[q]? = none := List.getElem?_eq_none (Nat.le_of_not_lt old)
    have unasked := life_unasked life (by rw [accountOf, absent]; rfl)
    by_cases new : q = ape.queries.length
    · have asked : (ape.queries ++ [{ arg := i }])[q]? = some { arg := i } := by rw [new, List.getElem?_concat_length]
      rw [unasked, asked] at rest
      rw [rest]
      exact .waiting
    · have still : (ape.queries ++ [{ arg := i }])[q]? = none := by
        rw [List.getElem?_eq_none]
        rw [List.length_append, List.length_singleton]
        omega
      rw [unasked, still] at rest
      rw [rest]
      exact .unasked

theorem life_step {call : ApeCall} (life : QueryLife (accountOf ape q)) (done : ape.step call = .ok next) :
    QueryLife (accountOf next q) := by
  cases ape_step_cases done with
  | new => exact life
  | setCallbacks here => exact life
  | listenNowhere here unasked => exact life
  | @listenFails i port bound listening accepted socket here asked fails =>
    exact life_kept life (@account_log ape q [.close i] (by simp) (by simp))
  | listens here asked succeeds => exact life_kept life (account_register.trans (account_log (by simp) (by simp)))
  | connectNowhere unasked closed => exact life_kept life (account_close closed)
  | connectUnix here asked unix dialed => exact life_kept life ((account_ready dialed).trans rfl)
  | connectAddress here asked address dialed =>
    exact life_kept life ((account_ready dialed).trans ((account_enter (by simp)).trans rfl))
  | @connectName i port localport numeric dialing socket here asked stream name =>
    exact @life_asked (portedApe ape i port localport) q i life
  | shutdown shut => exact life_kept life (account_shutdown shut)
  | shutdownNow shut => exact life_kept life (account_shutdown shut)
  | @abandoned k dialing params query undone invalid =>
    by_cases same : k = q
    · subst same
      exact life_abandoned life query undone
    · exact life_kept life ((account_others same).trans (account_finished same))
  | @resolved k dialing params next query undone valid dialed =>
    refine life_kept ?_ (account_ready dialed)
    by_cases same : k = q
    · subst same
      exact life_resolved life query undone
    · apply life_kept life
      exact (account_enter (by simp [Ne.symm same])).trans ((account_log (by simp) (by simp [Ne.symm same])).trans
        (account_finished same))
  | ares stepped => exact life
  | established idle here progress => exact life_kept life (account_called.trans (account_log (by simp) (by simp)))
  | unestablished idle closed => exact life_kept life (account_close closed)
  | ended idle closed => exact life_kept life (account_close closed)
  | acceptable idle => exact life_kept life (account_enter (by simp))
  | socketFree idle due here => exact life_kept life (account_due due (by simp))
  | socketDestroy idle due closed => exact life_kept life ((account_close closed).trans (account_due due (by simp)))
  | socketConnected idle due here => exact life_kept life (account_called.trans (account_due due (by simp)))
  | @paramsFree k r idle due =>
    by_cases same : r = q
    · subst same
      exact life_frees life due
    · exact life_kept life ((account_others same).trans (account_due due (by simp [same])))
  | returned frames => exact life_kept life (account_popped frames (by simp))
  | @closes i now rest socket frames here =>
    have closed : accountOf (((poppedApe ape rest).emit [.close i]).withEvents
        (ape.events.close socket.fd).eventsDel) q = accountOf ape q :=
      (@account_log (poppedApe ape rest) q [.close i] (by simp) (by simp)).trans (account_popped frames (by simp))
    apply @either_ape fun after => QueryLife (accountOf after q)
    · exact life_kept life closed
    · exact life_kept life ((account_dispatch (by simp)).trans closed)
  | @answered k rest frames =>
    by_cases same : k = q
    · subst same
      exact life_answers life frames
    · exact life_kept life ((account_dispatch (by simp [same])).trans (account_popped frames (by simp [same])))
  | asked frames record => exact life_kept life (account_popped frames (by simp))
  | connected frames => exact life_kept life (account_popped frames (by simp))
  | drained frames => exact life_kept life ((account_log (by simp) (by simp)).trans (account_popped frames (by simp)))
  | interrupted frames => exact life_kept life ((account_enter (by simp)).trans (account_popped frames (by simp)))
  | aborted frames => exact life_kept life (account_popped frames (by simp))
  | accepted frames here opens => exact life_kept life (account_accepted.trans (account_popped frames (by simp)))

end Steps

end ZapeProof
