import Zape.Ape.Releasing

/-! Output that waits is reported again: the `WOULD_BLOCK` flag and what the kernel answered since `EVENT_WRITE`. -/
namespace ZapeProof

open Machine ZapeModel

/-- Nothing is connected, and no file is queued without asking the kernel while `WOULD_BLOCK` is clear. -/
def Plain (connection : Connection) : Prop :=
  ∀ event ∈ connection.log, connects event = false ∧ event ≠ .sendfile true

/-- What calls change of what counts for the loop. -/
structure Sends (old new : Connection) : Prop where
  since : new.since = old.since
  state : new.state = old.state ∨ closed new.state = true
  signals : Signals old.world new.world
  rests : old.state ≠ .online → headActive new.world.socket = headActive old.world.socket ∧
    new.world.socket.wouldBlock = old.world.socket.wouldBlock

section Relations

variable {old middle new connection : Connection}

theorem Grows.plain (grows : Grows old new) (plain : Plain new) : Plain old := by
  obtain ⟨events, log⟩ := grows.log
  intro event member
  apply plain
  rw [log]
  exact List.mem_append_left _ member

theorem signals_plain {old new : World} (jobs : new.socket.jobs = old.socket.jobs)
    (flag : new.socket.wouldBlock = old.socket.wouldBlock) (out : ∃ events, new.out = old.out ++ events) :
    Signals old new where
  out := by
    obtain ⟨events, out⟩ := out
    refine ⟨events, out, ?_⟩
    rw [flag]
    exact .inl
  blocked := by
    rw [flag]
    exact id
  head := by
    rw [headActive, jobs]
    exact .inl

theorem sends_plain (since : new.since = old.since) (state : new.state = old.state ∨ closed new.state = true)
    (jobs : new.world.socket.jobs = old.world.socket.jobs)
    (flag : new.world.socket.wouldBlock = old.world.socket.wouldBlock)
    (out : ∃ events, new.world.out = old.world.out ++ events) : Sends old new where
  since := since
  state := state
  signals := signals_plain jobs flag out
  rests := fun _ => ⟨by rw [headActive, headActive, jobs], flag⟩

theorem sends_same (since : new.since = old.since) (world : new.world = old.world) : Sends old new := by
  have state : new.state = old.state := by
    rw [Connection.state, Connection.state, world]
  apply sends_plain since (.inl state)
  · rw [world]
  · rw [world]
  · exact ⟨[], by rw [world, List.append_nil]⟩

theorem sends_refl (connection : Connection) : Sends connection connection := sends_same rfl rfl

theorem Sends.trans (first : Sends old middle) (second : Sends middle new) : Sends old new where
  since := second.since.trans first.since
  state := by
    rcases second.state with same | shut
    · rw [same]
      exact first.state
    · exact .inr shut
  signals := first.signals.trans second.signals
  rests := by
    intro open_
    have still : middle.state ≠ .online := by
      rcases first.state with same | shut
      · rw [same]
        exact open_
      · intro online
        rw [online] at shut
        cases shut
    obtain ⟨head, flag⟩ := first.rests open_
    obtain ⟨head', flag'⟩ := second.rests still
    exact ⟨head'.trans head, flag'.trans flag⟩

theorem sends_dispatch (connection : Connection) (timer : SocketTimer) :
    Sends connection (connection.dispatchAsync timer) := sends_same rfl rfl

theorem sends_destroyAsync (connection : Connection) : Sends connection connection.destroyAsync := by
  rw [Connection.destroyAsync]
  split
  · exact sends_refl connection
  · exact sends_dispatch connection .destroy

theorem sends_shut (connection : Connection) : Sends connection connection.shut := by
  rw [Connection.shut]
  split
  · exact sends_refl connection
  · apply Sends.trans ?_ (sends_destroyAsync _)
    exact sends_plain rfl (.inr rfl) rfl rfl ⟨_, rfl⟩

theorem sends_follow (connection : Connection) (now : Bool) {world : World} (sent : Sent connection.world world)
    (idle : connection.state ≠ .online → world.socket = connection.world.socket) :
    Sends connection (connection.follow now world) := by
  have stays : Sends connection { connection with world } := by
    refine { since := rfl, state := leaves_closed sent.state, signals := sent.toSignals, rests := fun open_ => ?_ }
    have same := idle open_
    exact ⟨by rw [same], by rw [same]⟩
  rw [Connection.follow]
  split
  · apply Sends.trans ?_ (sends_destroyAsync _)
    cases now with
    | false => exact stays
    | true => exact stays.trans (sends_same rfl rfl)
  · exact stays

variable {called : Connection → Except Stop Connection}

theorem sends_closing (sends : ∀ middle new, called middle = .ok new → Plain new → Sends middle new)
    (closing : connection.closing called = .ok new) (plain : Plain new) : Sends connection new ∧ closed new.state = true := by
  rw [Connection.closing] at closing
  obtain ⟨last, ran, rfl⟩ := returned_map closing
  have past : Plain last := (grows_emit last _).plain plain
  let invalidated :=
    if connection.dnsState then { connection with dnsState := false, lookups := connection.lookups - 1 } else connection
  let offline := (invalidated.setState .offline).emit [.close]
  have starts : Sends connection offline := by
    simp only [offline, invalidated]
    split
    · exact sends_plain rfl (.inr rfl) rfl rfl ⟨[], (List.append_nil _).symm⟩
    · exact sends_plain rfl (.inr rfl) rfl rfl ⟨[], (List.append_nil _).symm⟩
  have calls : Sends offline last := by
    split at ran
    · have told : Sends offline (offline.emit [.onDisconnect]) := sends_same rfl rfl
      exact told.trans (sends _ _ ran past)
    · cases ran
      exact sends_refl _
  have shut : closed last.state = true := by
    rcases calls.state with same | shut
    · rw [same]
      rfl
    · exact shut
  refine ⟨?_, shut⟩
  have ends : Sends last (last.emit [.closeFd, .eventsDel]) := sends_same rfl rfl
  exact (starts.trans calls).trans ends

theorem sends_destroying (sends : ∀ middle new, called middle = .ok new → Plain new → Sends middle new)
    (destroyed : connection.destroying called = .ok new) (plain : Plain new) :
    Sends connection new ∧ closed new.state = true := by
  rw [Connection.destroying] at destroyed
  split at destroyed
  · rename_i offline
    cases destroyed
    refine ⟨sends_refl _, ?_⟩
    rw [offline]
    rfl
  · obtain ⟨last, ran, rfl⟩ := returned_map destroyed
    have past : Plain last := (grows_dispatch last .free).plain plain
    obtain ⟨closes, shut⟩ := sends_closing sends ran past
    have destroys : Sends connection { connection with world := connection.world.emit [.destroy] } :=
      sends_plain rfl (.inl rfl) rfl rfl ⟨_, rfl⟩
    exact ⟨(destroys.trans closes).trans (sends_dispatch last .free), shut⟩

end Relations

section Calls

variable {kernel : Kernel} {maxChunks fuel : Nat}

theorem performApi_idle {world next : World} {call : ApiCall}
    (performed : world.performApi kernel maxChunks fuel call = .ok next) (idle : world.socket.state ≠ .online)
    (sends : call ≠ .shutdown ∧ call ≠ .socket .writable ∧ call ≠ .socket .doJobs) : next.socket = world.socket := by
  cases call with
  | socket call =>
    cases call with
    | write data dataType =>
      obtain ⟨ret, returned⟩ := outcome_first performed
      rw [apeSocketWrite, if_pos (.inl idle)] at returned
      cases returned
      rfl
    | writable => exact absurd rfl sends.2.1
    | doJobs => exact absurd rfl sends.2.2
  | sendfile file =>
    obtain ⟨ret, returned⟩ := outcome_first performed
    unfold apeSendfile at returned
    rw [if_pos idle] at returned
    cases returned
    rfl
  | shutdown => exact absurd rfl sends.1

theorem asked_waits {world : World} {file : Option Nat} (asked : Connection.unasked world file = false)
    (some_ : file ≠ none) (online : world.socket.state = .online) (active : headActive world.socket = true) :
    world.socket.wouldBlock = true := by
  by_contra clear
  obtain ⟨fd, rfl⟩ := Option.ne_none_iff_exists'.mp some_
  have clear := Bool.not_eq_true _ |>.mp clear
  have queues : Connection.unasked world (some fd) = true := by
    rw [Connection.unasked, online, clear]
    exact active
  cases asked.symm.trans queues

mutual

theorem perform_sends (connection new : Connection) (call : ConnectionCall)
    (performed : connection.perform kernel maxChunks fuel call = .ok new) (plain : Plain new) : Sends connection new := by
  cases call with
  | write data dataType =>
    obtain ⟨world, sent, rfl⟩ := returned_map performed
    obtain ⟨ret, returned⟩ := outcome_first sent
    exact sends_follow connection true (write_sent returned) fun idle => performApi_idle sent idle ⟨nofun, nofun, nofun⟩
  | sendfile file =>
    obtain ⟨world, sent, rfl⟩ := returned_map performed
    let asked := connection.emit [.sendfile (Connection.unasked connection.world file)]
    have follows := @asks_follow asked false _ (performApi_leaves sent nofun ⟨nofun, nofun⟩)
    have queued : Connection.unasked connection.world file = false := by
      have member := follows.grows.plain plain (.sendfile (Connection.unasked connection.world file))
        (List.mem_append_right _ (List.mem_singleton_self _))
      cases file_ : Connection.unasked connection.world file with
      | false => rfl
      | true =>
        rw [file_] at member
        exact absurd rfl member.2
    obtain ⟨ret, returned⟩ := outcome_first sent
    have starts : Sends connection asked := sends_same rfl rfl
    apply starts.trans
    exact sends_follow asked false (sendfile_sent returned (asked_waits queued)) fun idle =>
      performApi_idle sent idle ⟨nofun, nofun, nofun⟩
  | shutdown onDisconnect =>
    simp only [Connection.perform] at performed
    split at performed
    · cases performed
      exact sends_refl connection
    · cases performed
      exact sends_refl connection
    · exact (sends_destroying (fun middle new => performAll_sends middle new onDisconnect) performed plain).1
    · exact (sends_destroying (fun middle new => performAll_sends middle new onDisconnect) performed plain).1
    · rename_i online
      obtain ⟨world, sent, rfl⟩ := returned_map performed
      have shut := shutdown_sent online (Option.some.inj (outcome_ok sent))
      exact sends_follow connection false shut fun idle => absurd online idle
  | shutdownNow onDisconnect =>
    simp only [Connection.perform] at performed
    split at performed
    · cases performed
      exact sends_refl connection
    · cases performed
      exact sends_refl connection
    · exact (sends_destroying (fun middle new => performAll_sends middle new onDisconnect) performed plain).1
    · exact (sends_destroying (fun middle new => performAll_sends middle new onDisconnect) performed plain).1
    · cases performed
      have left : Sends connection (connection.emit [.leave]) := sends_same rfl rfl
      exact left.trans (sends_shut _)
  | shutdownDelay =>
    simp only [Connection.perform] at performed
    cases performed
    split
    · exact sends_refl connection
    · exact sends_same rfl rfl
  | connect port lookup onDisconnect =>
    simp only [Connection.perform] at performed
    have asked := asks_connecting (fun middle new => performAll_asks middle new onDisconnect) performed
    have connected := asked.grows.plain plain (.connect connection.state connection.lookups)
      (List.mem_append_right _ (List.mem_singleton_self _))
    cases connected.1

theorem performAll_sends (connection new : Connection) (calls : List ConnectionCall)
    (performed : connection.performAll kernel maxChunks fuel calls = .ok new) (plain : Plain new) :
    Sends connection new := by
  cases calls with
  | nil =>
    simp only [Connection.performAll] at performed
    cases performed
    exact sends_refl connection
  | cons call calls =>
    simp only [Connection.performAll] at performed
    obtain ⟨middle, first, rest⟩ := returned_bind performed
    have past := (performAll_asks middle new calls rest).grows.plain plain
    exact (perform_sends connection middle call first past).trans (performAll_sends middle new calls rest plain)

end

end Calls

/-- A call that sends was answered `EAGAIN` since `EVENT_WRITE` was dispatched. -/
def Refused (connection : Connection) : Prop :=
  ∃ event ∈ connection.world.out.drop connection.since, refuses event = true

/-- The loop goes back to polling: what waits at the head will be reported. -/
def Woken (connection : Connection) : Prop :=
  connection.state = .online → headActive connection.world.socket = true → Refused connection

/-- While an event is dispatched a job may wait at the head although the flag was cleared. -/
structure Waits (connection : Connection) : Prop where
  since : connection.since ≤ connection.world.out.length
  rests : connection.state ≠ .online → closed connection.state = false →
    headActive connection.world.socket = false ∧ connection.world.socket.wouldBlock = false
  refused : connection.state = .online → connection.world.socket.wouldBlock = true → Refused connection

structure Wakes (connection : Connection) : Prop extends Waits connection where
  blocked : connection.state = .online → headActive connection.world.socket = true →
    connection.world.socket.wouldBlock = true

section Invariant

variable {old new connection : Connection}

theorem Wakes.woken (wakes : Wakes connection) : Woken connection :=
  fun online active => wakes.refused online (wakes.blocked online active)

theorem open_same (online : new.state = .online) (state : new.state = old.state ∨ closed new.state = true) :
    old.state = .online := by
  rcases state with same | shut
  · rw [← same]
    exact online
  · rw [online] at shut
    cases shut

theorem Sends.waits (sends : Sends old new) (waits : Waits old) : Waits new := by
  obtain ⟨events, out, refuses_⟩ := sends.signals.out
  have since : old.world.out.drop old.since ++ events = new.world.out.drop new.since := by
    rw [sends.since, out, List.drop_append_of_le_length waits.since]
  refine { since := ?_, rests := fun other open_ => ?_, refused := fun online set => ?_ }
  · have before := waits.since
    rw [sends.since, out, List.length_append]
    omega
  · have same : new.state = old.state := by
      rcases sends.state with same | shut
      · exact same
      · cases open_.symm.trans shut
    rw [same] at other open_
    obtain ⟨head, flag⟩ := sends.rests other
    rw [head, flag]
    exact waits.rests other open_
  · rw [Refused, ← since]
    rcases refuses_ set with before | ⟨event, member, refused⟩
    · obtain ⟨event, member, refused⟩ := waits.refused (open_same online sends.state) before
      exact ⟨event, List.mem_append_left _ member, refused⟩
    · exact ⟨event, List.mem_append_right _ member, refused⟩

theorem Sends.wakes (sends : Sends old new) (wakes : Wakes old) : Wakes new := by
  refine ⟨sends.waits wakes.toWaits, fun online active => ?_⟩
  rcases sends.signals.head active with before | set
  · exact sends.signals.blocked (wakes.blocked (open_same online sends.state) before)
  · exact set

theorem waits_closed (waits : Waits connection) (shut : closed connection.state = true) : Wakes connection := by
  refine ⟨waits, fun online => ?_⟩
  rw [online] at shut
  cases shut

theorem unblock_waits (wakes : Wakes connection) : Waits connection.unblock where
  since := Nat.le_refl _
  rests := fun other open_ => ⟨(wakes.rests other open_).1, rfl⟩
  refused := fun _ => nofun

end Invariant

section Events

variable {kernel : Kernel} {maxChunks fuel : Nat} {connection new : Connection} {event : LoopEvent} {ret : Int}

theorem callback_sends {set : Bool} {told : ConnectionEvent} {calls : List ConnectionCall}
    (returned : connection.callback kernel maxChunks fuel set told calls = .ok new) (plain : Plain new) :
    Sends connection new := by
  rw [Connection.callback] at returned
  split at returned
  · have tells : Sends connection (connection.emit [told]) := sends_same rfl rfl
    exact tells.trans (performAll_sends _ new calls returned plain)
  · cases returned
    exact sends_refl connection

theorem destroy_sends {onDisconnect : List ConnectionCall}
    (destroyed : connection.apeSocketDestroy kernel maxChunks fuel onDisconnect = .ok new) (plain : Plain new) :
    Sends connection new ∧ closed new.state = true :=
  sends_destroying (fun middle new => performAll_sends middle new onDisconnect) destroyed plain

theorem read_sends (read : connection.apeSocketRead kernel maxChunks fuel event = .ok (new, ret)) (plain : Plain new) :
    Sends connection new ∧ (ret = -1 → closed new.state = true) := by
  by_cases online : connection.state = .online
  · obtain ⟨middle, called, rest⟩ := read_cases online read
    have asked : Sends connection (connection.emit ((receive event.reads).replies.map .read)) := sends_same rfl rfl
    have past := (read_ends rest).plain plain
    have early : Sends connection middle := by
      split at called
      · exact asked.trans (callback_sends called past)
      · cases called
        exact asked
    split at rest
    · obtain ⟨destroys, shut⟩ := destroy_sends rest.1 plain
      exact ⟨early.trans destroys, fun _ => shut⟩
    · obtain ⟨rfl, rfl⟩ := rest
      exact ⟨early, nofun⟩
  · obtain ⟨rfl, rfl⟩ := read_closed online read
    exact ⟨sends_refl _, nofun⟩

theorem readUdp_sends {datagrams : List (ReadReply × List ConnectionCall)}
    (read : connection.apeSocketReadUdp kernel maxChunks fuel datagrams = .ok new) (plain : Plain new) :
    Sends connection new := by
  refine readUdp_induction (motive := fun connection new => Plain new → Sends connection new) ?_ ?_ read plain
  · intro connection reply _
    exact sends_same rfl rfl
  · intro connection middle new byte bytes calls rest called later ih plain
    have answers : Sends connection (connection.emit [.read (.bytes (byte :: bytes))]) := sends_same rfl rfl
    exact (answers.trans (callback_sends called ((readUdp_grows later).plain plain))).trans (ih plain)

/-- The jobs are done until the kernel refuses something or none is left at the head. -/
theorem doJobs_wakes (online : connection.state = .online) (clear : connection.world.socket.wouldBlock = false)
    (waits : Waits connection) {onDrain : List ConnectionCall}
    (done : connection.doJobs kernel maxChunks fuel onDrain = .ok new) (plain : Plain new) : Wakes new := by
  obtain ⟨world, njobsdone, now, ran, rest⟩ := doJobs_cases done
  have flushed := doJobs_flushed online ran
  obtain ⟨events, out, refuses_⟩ := flushed.out
  let worked : Connection := { connection with world }
  have works : Wakes worked := by
    refine { since := ?_, rests := fun other open_ => ?_, refused := fun _ set => ?_, blocked := flushed.head }
    · have before := waits.since
      show connection.since ≤ world.out.length
      rw [out, List.length_append]
      omega
    · rcases leaves_closed flushed.state with same | shut
      · exact absurd (same.trans online) other
      · cases open_.symm.trans shut
    · rcases refuses_ set with before | ⟨event, member, refused⟩
      · cases clear.symm.trans before
      · refine ⟨event, ?_, refused⟩
        show event ∈ world.out.drop connection.since
        rw [out, List.drop_append_of_le_length waits.since]
        exact List.mem_append_right _ member
  have follows : Sends worked (connection.follow now world) := by
    rw [Connection.follow]
    split
    · apply Sends.trans ?_ (sends_destroyAsync _)
      cases now with
      | false => exact sends_refl _
      | true => exact sends_same rfl rfl
    · exact sends_refl _
  have followed := follows.wakes works
  split at rest
  · exact (callback_sends rest plain).wakes followed
  · cases rest
    exact followed

theorem writable_wakes (waits : Waits connection) (wrote : connection.writable kernel maxChunks fuel event = .ok new)
    (plain : Plain new) : Wakes new := by
  rw [Connection.writable] at wrote
  split at wrote
  · rename_i ready
    exact doJobs_wakes ready.1 ready.2 waits wrote plain
  · rename_i busy
    split at wrote
    · rename_i progress
      split at wrote
      · obtain ⟨destroys, shut⟩ := destroy_sends wrote plain
        exact waits_closed (destroys.waits waits) shut
      · obtain ⟨idle, clear⟩ := waits.rests (by rw [progress]; decide) (by rw [progress]; rfl)
        have connected : Wakes (connection.setState .online) := by
          refine { since := waits.since, rests := fun other => absurd rfl other, refused := fun _ set => ?_,
                   blocked := fun _ active => ?_ }
          · cases clear.symm.trans set
          · cases idle.symm.trans active
        exact (callback_sends wrote plain).wakes connected
    · cases wrote
      refine ⟨waits, fun online _ => ?_⟩
      by_contra clear
      exact busy ⟨online, Bool.not_eq_true _ |>.mp clear⟩

theorem dispatch_wakes (wakes : Wakes connection) (dispatched : connection.dispatch kernel maxChunks fuel event = .ok new)
    (plain : Plain new) : Wakes new := by
  obtain ⟨middle, ret, read, rest⟩ := dispatch_cases dispatched
  have past := (write_rest rest).plain plain
  let ready := if event.writable then connection.unblock else connection
  have early : Sends ready middle ∧ (ret = -1 → closed middle.state = true) := by
    split at read
    · split at read
      · exact read_sends read past
      · obtain ⟨next, udp, same⟩ := returned_map read
        cases same
        exact ⟨readUdp_sends udp past, nofun⟩
    · cases read
      exact ⟨sends_refl _, nofun⟩
  cases writes : event.writable with
  | false =>
    simp only [ready, writes, Bool.false_eq_true, if_false] at early
    rw [if_neg fun both => Bool.false_ne_true (writes.symm.trans both.2)] at rest
    rw [rest]
    exact early.1.wakes wakes
  | true =>
    simp only [ready, writes, if_true] at early
    have waits := early.1.waits (unblock_waits wakes)
    split at rest
    · exact writable_wakes waits rest plain
    · rename_i ends
      rw [rest]
      apply waits_closed waits
      apply early.2
      by_contra other
      exact ends ⟨other, writes⟩

theorem runTimer_sends {timer : SocketTimer} {calls : List ConnectionCall}
    (ran : connection.runTimer kernel maxChunks fuel timer calls = .ok new) (plain : Plain new) : Sends connection new := by
  unfold Connection.runTimer at ran
  split at ran
  · cases ran
    exact sends_same rfl rfl
  · split at ran
    · exact callback_sends ran plain
    · rw [Connection.destroyNow] at ran
      split at ran
      · cases ran
        exact sends_refl _
      · obtain ⟨last, closing, rfl⟩ := returned_map ran
        have freeing : Grows last last.apeSocketFree := ⟨⟨_, rfl⟩, rfl, rfl⟩
        have closes := sends_closing (fun middle new => performAll_sends middle new calls) closing (freeing.plain plain)
        have frees : Sends last last.apeSocketFree := sends_same rfl rfl
        exact closes.1.trans frees
    · cases ran
      exact sends_same rfl rfl
    · obtain ⟨middle, performed, rfl⟩ := returned_map ran
      have ends : Sends middle { middle with delayTimer := false } := sends_same rfl rfl
      exact (perform_sends connection middle _ performed plain).trans ends

end Events

section Runs

variable {kernel : Kernel} {maxChunks fuel : Nat} {start connection new : Connection}

theorem step_wakes (wakes : Wakes connection) {step : ConnectionStep}
    (stepped : connection.step kernel maxChunks fuel step = .ok new) (plain : Plain new) : Wakes new := by
  -- a lookup is only answered for a socket that is being connected
  have unanswered : ∀ {other : Connection}, Grows (answered connection) other → ¬Plain other := by
    intro other grows plain
    have impossible := grows.plain plain (.connect connection.state (connection.lookups - 1))
      (List.mem_append_right _ (List.mem_singleton_self _))
    cases impossible.1
  cases step_cases stepped with
  | stays => exact wakes
  | called unreleased performed => exact (perform_sends connection new _ performed plain).wakes wakes
  | dispatched unreleased ran => exact dispatch_wakes wakes ran plain
  | late waits released => exact absurd plain (unanswered (grows_emit _ _))
  | resolved waits ready =>
    have calls := fun middle new => @performAll_asks kernel maxChunks fuel middle new
    have grows := (asks_readyToConnect (fun middle new => calls middle new _) (gone_connect _ _ _) ready).grows
    exact absurd plain (unanswered grows)
  | started idle =>
    have marks : Sends connection { connection with timers := connection.timers.map ({ · with visit := true }) } :=
      sends_same rfl rfl
    exact marks.wakes wakes
  | skipped found delays =>
    have skips : Sends connection { connection with timers := skipFirst connection.timers } := sends_same rfl rfl
    exact skips.wakes wakes
  | @ran _ _ last found returned =>
    have ends : Sends last { last with timers := last.timers.eraseP (·.visit) } := sends_same rfl rfl
    exact ((runTimer_sends returned plain).trans ends).wakes wakes

theorem run_wakes (wakes : Wakes start) {steps : List ConnectionStep}
    (reached : runAll (Connection.step kernel maxChunks fuel) start steps = .ok connection) (plain : Plain connection) :
    Wakes connection := by
  apply runAll_within wakes ?_ ?_ reached plain
  · exact fun state step next before stepped => step_wakes before stepped
  · exact fun state step next stepped => (step_grows stepped).plain

end Runs

/-- Whenever a job waits at the head of an `ONLINE` socket the kernel refused something since `EVENT_WRITE`, as long as no
    file is queued without asking the kernel. -/
theorem woken_run (kernel : Kernel) (maxChunks fuel : Nat) (limit total : SizeT) (accepted : Bool) (proto : Protocol)
    (callbacks : SocketCallbacks) (steps : List ConnectionStep) {connection : Connection}
    (reached : runAll (Connection.step kernel maxChunks fuel)
      { openedSocket limit total accepted callbacks with proto } steps = .ok connection)
    (unconnected : ∀ event ∈ connection.log, connects event = false) (asked : .sendfile true ∉ connection.log) :
    Woken connection := by
  have starts : Wakes { openedSocket limit total accepted callbacks with proto } := by
    have idle : headActive (openedSocket limit total accepted callbacks).world.socket = false := by
      rw [headActive, show (openedSocket limit total accepted callbacks).world.socket.jobs = ({} : ApeSocket).jobs from rfl]
      decide
    have clear : (openedSocket limit total accepted callbacks).world.socket.wouldBlock = false := by rfl
    refine { since := Nat.le_refl _, rests := fun _ _ => ⟨idle, clear⟩, refused := fun _ set => ?_,
             blocked := fun _ active => ?_ }
    · cases clear.symm.trans set
    · cases idle.symm.trans active
  have plain : Plain connection := by
    intro event member
    refine ⟨unconnected event member, ?_⟩
    rintro rfl
    exact asked member
  exact (run_wakes starts reached plain).woken

def refusing : Kernel where
  reply _ _ := .again
  honest := by nofun

/-- What counts for the loop when it goes back to polling, and what was sent since `EVENT_WRITE`. -/
def polling (connection : Connection) : SocketState × Bool × List SocketEvent × List ConnectionEvent :=
  (connection.state, headActive connection.world.socket, connection.world.out.drop connection.since, connection.log)

/-- Two bytes wait, and are tried again when the socket can be written to. -/
def waitsTwice : List ConnectionStep := [.call (.write twoBytes .copy), .event { writable := true }]

theorem woken_waits : ∃ connection,
    runAll (Connection.step refusing 1 2) { openedSocket 0#64 0#64 true {} with proto := .tcp } waitsTwice = .ok connection ∧
      headActive connection.world.socket = true ∧ Woken connection := by
  have ran : (runAll (Connection.step refusing 1 2) { openedSocket 0#64 0#64 true {} with proto := .tcp } waitsTwice).map
      polling = .ok (.online, true, [.writev [[0x41#8, 0x42#8]] .again], []) := by rfl
  obtain ⟨connection, reached, observed⟩ := returned_map ran
  have log : connection.log = [] := congrArg (·.2.2.2) observed
  refine ⟨connection, reached, congrArg (·.2.1) observed, ?_⟩
  apply woken_run refusing 1 2 0#64 0#64 true .tcp {} waitsTwice reached
  · rw [log]
    exact nofun
  · rw [log]
    exact List.not_mem_nil

/-- Two bytes wait; the event that would have them tried again also has something to read, and `on_read` sends a file. -/
def sendsReading : List ConnectionStep :=
  [.call (.write twoBytes .copy),
    .event { readable := true, writable := true, reads := [.bytes [0x41#8]], onRead := [.sendfile (some 5)] }]

/-- Both wait, and the kernel was not asked. -/
theorem never_woken : ∃ connection,
    runAll (Connection.step refusing 1 2) (openedSocket 0#64 0#64 true {}) sendsReading = .ok connection ∧
      ¬Woken connection := by
  have ran : (runAll (Connection.step refusing 1 2) (openedSocket 0#64 0#64 true {}) sendsReading).map polling =
      .ok (.online, true, [], [.read (.bytes [0x41#8]), .read .again, .onRead [0x41#8], .sendfile true]) := by rfl
  obtain ⟨connection, reached, observed⟩ := returned_map ran
  refine ⟨connection, reached, fun woken => ?_⟩
  obtain ⟨event, member, -⟩ := woken (congrArg Prod.fst observed) (congrArg (·.2.1) observed)
  have nothing : connection.world.out.drop connection.since = [] := congrArg (·.2.2.1) observed
  rw [nothing] at member
  cases member

end ZapeProof
