import Zape.Ape.Lifecycle
import Zape.Machine.Runs

/-! Over whole runs: a socket is closed once and released once, and no callback is given it after that. -/
namespace ZapeProof

open Machine ZapeModel

section Callbacks

variable {kernel : Kernel} {maxChunks fuel : Nat} {connection new : Connection}

theorem alive_delivered (alive : Alive connection) (open_ : connection.state ≠ .offline) {event : ConnectionEvent}
    (delivered : delivers event = true) : Alive (connection.emit [event]) := by
  have same : SameHold connection (connection.emit [event]) := ⟨rfl, rfl, rfl, rfl, rfl, rfl⟩
  have state : (connection.emit [event]).state = connection.state := rfl
  unfold Alive at alive ⊢
  rw [state]
  split at alive
  · exact ⟨same.holding alive.1 id, ends_delivered alive.2 delivered⟩
  · exact ⟨same.holding alive.1 id, ends_delivered alive.2 delivered⟩
  · exact ⟨same.holding alive.1 id, ends_delivered alive.2 delivered⟩
  · exact ⟨same.holding alive.1 id, ends_delivered alive.2 delivered⟩
  · rename_i offline
    exact absurd offline open_

/-- A callback that is set is told first, and what it calls comes after that. -/
theorem callback_cases {set : Bool} {event : ConnectionEvent} {calls : List ConnectionCall}
    (returned : connection.callback kernel maxChunks fuel set event calls = .ok new) :
    set = true ∧ Asks (connection.emit [event]) new ∨ new = connection := by
  rw [Connection.callback] at returned
  split at returned
  · rename_i is_set
    exact .inl ⟨is_set, performAll_asks _ new calls returned⟩
  · cases returned
    exact .inr rfl

theorem callback_grows {set : Bool} {event : ConnectionEvent} {calls : List ConnectionCall}
    (returned : connection.callback kernel maxChunks fuel set event calls = .ok new) : Grows connection new := by
  rcases callback_cases returned with ⟨-, asked⟩ | rfl
  · exact (grows_emit connection [event]).trans asked.grows
  · exact grows_refl _

theorem callback_kept (alive : Alive connection) {set : Bool} {event : ConnectionEvent} {calls : List ConnectionCall}
    (told : Alive (connection.emit [event]))
    (returned : connection.callback kernel maxChunks fuel set event calls = .ok new) (orderly : OrderlyLog new) :
    Kept connection new := by
  rw [Connection.callback] at returned
  split at returned
  · have kept := calls_kept told returned orderly
    exact ⟨kept.alive, kept.timers⟩
  · cases returned
    exact kept_refl alive

theorem destroy_asks {onDisconnect : List ConnectionCall}
    (destroyed : connection.apeSocketDestroy kernel maxChunks fuel onDisconnect = .ok new) : Asks connection new :=
  asks_destroying (fun middle new => performAll_asks middle new onDisconnect) destroyed

theorem destroy_grows {onDisconnect : List ConnectionCall}
    (destroyed : connection.apeSocketDestroy kernel maxChunks fuel onDisconnect = .ok new) : Grows connection new :=
  (destroy_asks destroyed).grows

theorem destroy_kept (open_ : connection.state ≠ .shutdown) (alive : Alive connection)
    {onDisconnect : List ConnectionCall}
    (destroyed : connection.apeSocketDestroy kernel maxChunks fuel onDisconnect = .ok new) (orderly : OrderlyLog new) :
    Kept connection new :=
  destroying_kept (fun middle new => performAll_asks middle new onDisconnect) (fun _ _ => performAll_rests) open_ alive
    destroyed orderly

theorem Kept.trans {old middle : Connection} (first : Kept old middle) (second : Kept middle new) : Kept old new :=
  ⟨second.alive, first.timers.trans second.timers⟩

end Callbacks

section Events

variable {kernel : Kernel} {maxChunks fuel : Nat} {connection new : Connection} {event : LoopEvent} {ret : Int}

theorem read_cases (online : connection.state = .online)
    (read : connection.apeSocketRead kernel maxChunks fuel event = .ok (new, ret)) :
    let received := receive event.reads
    let asked := connection.emit (received.replies.map .read)
    ∃ middle, (if received.data ≠ [] then
        asked.callback kernel maxChunks fuel connection.callbacks.onRead (.onRead received.data) event.onRead
      else .ok asked) = .ok middle ∧
      if (received.last = .bytes [] ∨ received.last = .failed) ∧ middle.state ≠ .shutdown then
        middle.apeSocketDestroy kernel maxChunks fuel event.onDisconnect = .ok new ∧ ret = -1
      else new = middle ∧ ret = 0 := by
  intro received asked
  rw [Connection.apeSocketRead, if_neg (not_not.mpr online)] at read
  obtain ⟨middle, called, rest⟩ := returned_bind read
  have still : asked.state = .online := online
  refine ⟨middle, ?_, ?_⟩
  · rw [← called]
    by_cases some_data : received.data = []
    · rw [if_neg (not_not.mpr some_data), if_neg]
      exact fun both => both.1 some_data
    · rw [if_pos some_data, if_pos]
      · rfl
      · exact ⟨some_data, by rw [still]; decide⟩
  · split at rest
    · rename_i ends
      rw [if_pos ends]
      obtain ⟨destroyed, ran, same⟩ := returned_map rest
      cases same
      exact ⟨ran, rfl⟩
    · rename_i stays
      rw [if_neg stays]
      cases rest
      exact ⟨rfl, rfl⟩

theorem read_closed (closed : connection.state ≠ .online)
    (read : connection.apeSocketRead kernel maxChunks fuel event = .ok (new, ret)) : new = connection ∧ ret = 0 := by
  rw [Connection.apeSocketRead, if_pos closed] at read
  cases read
  exact ⟨rfl, rfl⟩

theorem read_ends {middle : Connection} {received : Received}
    (rest : if (received.last = .bytes [] ∨ received.last = .failed) ∧ middle.state ≠ .shutdown then
        middle.apeSocketDestroy kernel maxChunks fuel event.onDisconnect = .ok new ∧ ret = -1
      else new = middle ∧ ret = 0) : Grows middle new := by
  split at rest
  · exact destroy_grows rest.1
  · rw [rest.1]
    exact grows_refl middle

theorem read_grows (read : connection.apeSocketRead kernel maxChunks fuel event = .ok (new, ret)) :
    Grows connection new := by
  by_cases online : connection.state = .online
  · obtain ⟨middle, called, rest⟩ := read_cases online read
    have asked := grows_emit connection ((receive event.reads).replies.map .read)
    have early : Grows connection middle := by
      split at called
      · exact asked.trans (callback_grows called)
      · cases called
        exact asked
    exact early.trans (read_ends rest)
  · rw [(read_closed online read).1]
    exact grows_refl connection

theorem hidden_reads (replies : List ReadReply) : (replies.map ConnectionEvent.read).filter visible = [] := by
  rw [List.filter_eq_nil_iff]
  intro event member
  obtain ⟨reply, -, rfl⟩ := List.mem_map.mp member
  exact Bool.false_ne_true

theorem read_kept (alive : Alive connection)
    (read : connection.apeSocketRead kernel maxChunks fuel event = .ok (new, ret)) (orderly : OrderlyLog new) :
    Kept connection new := by
  by_cases online : connection.state = .online
  · obtain ⟨middle, called, rest⟩ := read_cases online read
    have past := (read_ends rest).orderly orderly
    have asked : Alive (connection.emit ((receive event.reads).replies.map .read)) := alive_emit alive (hidden_reads _)
    have early : Kept connection middle := by
      split at called
      · have told := @alive_delivered _ asked (by show connection.state ≠ _; rw [online]; decide)
          (.onRead (receive event.reads).data) rfl
        have kept := callback_kept asked told called past
        exact ⟨kept.alive, kept.timers⟩
      · cases called
        exact ⟨asked, pushes_refl _⟩
    split at rest
    · rename_i ends
      exact early.trans (destroy_kept ends.2 early.alive rest.1 orderly)
    · rw [rest.1]
      exact early
  · rw [(read_closed online read).1]
    exact kept_refl alive

/-- The datagrams are received one by one, up to an answer that is none, and a callback may have gone before. -/
theorem readUdp_induction {motive : Connection → Connection → Prop}
    (ends : ∀ connection reply, motive connection (connection.emit [.read reply]))
    (more : ∀ (connection middle new : Connection) (byte : Byte) (bytes : List Byte) (calls : List ConnectionCall)
      (rest : List (ReadReply × List ConnectionCall)),
      (connection.emit [.read (.bytes (byte :: bytes))]).callback kernel maxChunks fuel connection.callbacks.onMessage
        (.onMessage (byte :: bytes)) calls = .ok middle →
      middle.apeSocketReadUdp kernel maxChunks fuel rest = .ok new → motive middle new → motive connection new)
    {datagrams : List (ReadReply × List ConnectionCall)}
    (read : connection.apeSocketReadUdp kernel maxChunks fuel datagrams = .ok new) : motive connection new := by
  induction datagrams generalizing connection with
  | nil =>
    cases read
    exact ends connection .again
  | cons datagram datagrams ih =>
    unfold Connection.apeSocketReadUdp at read
    split at read
    · rename_i nothing
      cases nothing
    · rename_i byte bytes calls rest same
      cases same
      obtain ⟨middle, called, later⟩ := returned_bind read
      exact more connection middle new byte bytes calls datagrams called later (ih later)
    · cases read
      exact ends connection _

theorem readUdp_grows {datagrams : List (ReadReply × List ConnectionCall)}
    (read : connection.apeSocketReadUdp kernel maxChunks fuel datagrams = .ok new) : Grows connection new := by
  refine readUdp_induction (motive := Grows) ?_ ?_ read
  · intro connection reply
    exact grows_emit connection _
  · intro connection middle new byte bytes calls rest called later grows
    exact ((grows_emit connection _).trans (callback_grows called)).trans grows

theorem readUdp_kept (alive : Alive connection) {datagrams : List (ReadReply × List ConnectionCall)}
    (read : connection.apeSocketReadUdp kernel maxChunks fuel datagrams = .ok new) (orderly : OrderlyLog new) :
    Kept connection new := by
  refine readUdp_induction (motive := fun connection new => Alive connection → OrderlyLog new → Kept connection new)
    ?_ ?_ read alive orderly
  · intro connection reply alive _
    exact ⟨alive_emit alive rfl, pushes_refl _⟩
  · intro connection middle new byte bytes calls rest called later ih alive orderly
    have asked : Alive (connection.emit [.read (.bytes (byte :: bytes))]) := alive_emit alive rfl
    have told := alive_emit asked (show [ConnectionEvent.onMessage (byte :: bytes)].filter visible = [] from rfl)
    have kept := callback_kept asked told called ((readUdp_grows later).orderly orderly)
    exact Kept.trans ⟨kept.alive, kept.timers⟩ (ih kept.alive orderly)

theorem doJobs_cases {onDrain : List ConnectionCall}
    (done : connection.doJobs kernel maxChunks fuel onDrain = .ok new) :
    ∃ world njobsdone now, apeSocketDoJobs kernel maxChunks fuel connection.world = some (.ok (world, njobsdone)) ∧
      (if njobsdone = 1 then
        (connection.follow now world).callback kernel maxChunks fuel (connection.follow now world).callbacks.onDrain .onDrain
          onDrain
      else .ok (connection.follow now world)) = .ok new := by
  obtain ⟨⟨world, njobsdone⟩, ran, rest⟩ := returned_bind done
  exact ⟨world, njobsdone, _, outcome_ok ran, rest⟩

theorem doJobs_grows (online : connection.state = .online) {onDrain : List ConnectionCall}
    (done : connection.doJobs kernel maxChunks fuel onDrain = .ok new) : Grows connection new := by
  obtain ⟨world, njobsdone, now, ran, rest⟩ := doJobs_cases done
  have followed := asks_follow connection now (doJobs_flushed online ran).state
  split at rest
  · exact followed.grows.trans (callback_grows rest)
  · cases rest
    exact followed.grows

theorem follow_state (now : Bool) (world : World) : (connection.follow now world).state = world.socket.state := by
  have async : ∀ other : Connection, other.destroyAsync.state = other.state := by
    intro other
    rw [Connection.destroyAsync]
    split <;> rfl
  rw [Connection.follow]
  split
  · rw [async]
    cases now <;> rfl
  · rfl

theorem doJobs_kept (online : connection.state = .online) (alive : Alive connection) {onDrain : List ConnectionCall}
    (done : connection.doJobs kernel maxChunks fuel onDrain = .ok new) (orderly : OrderlyLog new) :
    Kept connection new := by
  obtain ⟨world, njobsdone, now, ran, rest⟩ := doJobs_cases done
  have leaves := (doJobs_flushed online ran).state
  split at rest
  · have kept := follow_kept alive now leaves ((callback_grows rest).orderly orderly)
    have open_ : (connection.follow now world).state ≠ .offline := by
      rw [follow_state]
      rcases leaves with same | ⟨-, shut⟩
      · rw [same, show connection.world.socket.state = _ from online]
        decide
      · rw [shut]
        decide
    exact kept.trans (callback_kept kept.alive (alive_delivered kept.alive open_ rfl) rest orderly)
  · cases rest
    exact follow_kept alive now leaves orderly

theorem writable_grows (wrote : connection.writable kernel maxChunks fuel event = .ok new) : Grows connection new := by
  rw [Connection.writable] at wrote
  split at wrote
  · rename_i ready
    exact doJobs_grows ready.1 wrote
  · split at wrote
    · split at wrote
      · exact destroy_grows wrote
      · have connected : Grows (connection.setState .online) new := callback_grows wrote
        apply Grows.trans ?_ connected
        exact grows_same rfl rfl rfl
    · cases wrote
      exact grows_refl _

theorem writable_kept (alive : Alive connection) (wrote : connection.writable kernel maxChunks fuel event = .ok new)
    (orderly : OrderlyLog new) : Kept connection new := by
  rw [Connection.writable] at wrote
  split at wrote
  · rename_i ready
    exact doJobs_kept ready.1 alive wrote orderly
  · split at wrote
    · rename_i progress
      split at wrote
      · exact destroy_kept (by rw [progress]; decide) alive wrote orderly
      · obtain ⟨holding, ends⟩ := (alive_open (by rw [progress]; decide) (by rw [progress]; decide)).mp alive
        have same : SameHold connection (connection.setState .online) := ⟨rfl, rfl, rfl, rfl, rfl, rfl⟩
        have online : Alive (connection.setState .online) :=
          (@alive_open (connection.setState .online) nofun nofun).mpr ⟨same.holding holding nofun, ends⟩
        have kept := callback_kept online (alive_emit online rfl) wrote orderly
        exact ⟨kept.alive, kept.timers⟩
    · cases wrote
      exact kept_refl alive

theorem alive_unblock (alive : Alive connection) : Alive connection.unblock := by
  have same : SameHold connection connection.unblock := ⟨rfl, rfl, rfl, rfl, rfl, rfl⟩
  exact alive_same same rfl rfl rfl alive

theorem ready_same (connection : Connection) (event : LoopEvent) :
    let ready := if event.writable then connection.unblock else connection
    ready.log = connection.log ∧ ready.state = connection.state ∧ ready.proto = connection.proto ∧
      ready.callbacks = connection.callbacks := by
  intro ready
  simp only [ready]
  split
  · exact ⟨rfl, rfl, rfl, rfl⟩
  · exact ⟨rfl, rfl, rfl, rfl⟩

theorem dispatch_cases (dispatched : connection.dispatch kernel maxChunks fuel event = .ok new) :
    let ready := if event.writable then connection.unblock else connection
    ∃ middle ret, (if event.readable then
        match connection.proto with
        | .tcp => ready.apeSocketRead kernel maxChunks fuel event
        | .udp => (ready.apeSocketReadUdp kernel maxChunks fuel event.datagrams).map fun connection => (connection, 0)
      else .ok (ready, 0)) = .ok (middle, ret) ∧
      if ret ≠ -1 ∧ event.writable = true then middle.writable kernel maxChunks fuel event = .ok new else new = middle := by
  intro ready
  obtain ⟨⟨middle, ret⟩, read, rest⟩ := returned_bind dispatched
  refine ⟨middle, ret, ?_, ?_⟩
  · rw [← (ready_same connection event).2.2.1]
    exact read
  · dsimp only at rest
    split at rest
    · rename_i writes
      rw [if_pos writes]
      exact rest
    · rename_i stays
      rw [if_neg stays]
      cases rest
      rfl

theorem write_rest {middle : Connection}
    (rest : if ret ≠ -1 ∧ event.writable = true then middle.writable kernel maxChunks fuel event = .ok new
      else new = middle) : Grows middle new := by
  split at rest
  · exact writable_grows rest
  · rw [rest]
    exact grows_refl middle

theorem dispatch_grows (dispatched : connection.dispatch kernel maxChunks fuel event = .ok new) : Grows connection new := by
  obtain ⟨middle, ret, read, rest⟩ := dispatch_cases dispatched
  obtain ⟨log, -, proto, callbacks⟩ := ready_same connection event
  have ready := grows_same log proto callbacks
  have early : Grows connection middle := by
    split at read
    · split at read
      · exact ready.trans (read_grows read)
      · obtain ⟨next, udp, same⟩ := returned_map read
        cases same
        exact ready.trans (readUdp_grows udp)
    · cases read
      exact ready
  exact early.trans (write_rest rest)

theorem dispatch_kept (alive : Alive connection) (dispatched : connection.dispatch kernel maxChunks fuel event = .ok new)
    (orderly : OrderlyLog new) : Kept connection new := by
  obtain ⟨middle, ret, read, rest⟩ := dispatch_cases dispatched
  have past := (write_rest rest).orderly orderly
  have ready : Kept connection (if event.writable then connection.unblock else connection) := by
    split
    · exact ⟨alive_unblock alive, pushes_refl _⟩
    · exact kept_refl alive
  have early : Kept connection middle := by
    split at read
    · split at read
      · exact ready.trans (read_kept ready.alive read past)
      · obtain ⟨next, udp, same⟩ := returned_map read
        cases same
        exact ready.trans (readUdp_kept ready.alive udp past)
    · cases read
      exact ready
  split at rest
  · exact early.trans (writable_kept early.alive rest orderly)
  · rw [rest]
    exact early

end Events

section Lists

variable {timers left right : List PendingTimer} {pending : PendingTimer}

@[simp] theorem tally_append (left right : List PendingTimer) (timer : SocketTimer) :
    tally (left ++ right) timer = tally left timer + tally right timer := List.countP_append

theorem tally_middle (left right : List PendingTimer) (pending : PendingTimer) (timer : SocketTimer) :
    tally (left ++ pending :: right) timer = tally (left ++ right) timer + if pending.timer = timer then 1 else 0 := by
  simp only [tally_append, tally_cons]
  omega

theorem first_visit (found : timers.find? (·.visit) = some pending) :
    ∃ left right, timers = left ++ pending :: right ∧ pending.visit = true ∧ ∀ other ∈ left, other.visit = false := by
  obtain ⟨visit, left, right, rfl, before⟩ := List.find?_eq_some_iff_append.mp found
  refine ⟨left, right, rfl, visit, fun other member => ?_⟩
  have this := before other member
  exact Bool.not_eq_true' _ |>.mp this

theorem erase_visit (visit : pending.visit = true) (before : ∀ other ∈ left, other.visit = false) :
    (left ++ pending :: right).eraseP (·.visit) = left ++ right := by
  rw [List.eraseP_append_right]
  · rw [List.eraseP_cons_of_pos visit]
  · intro other member
    rw [before other member]
    exact Bool.false_ne_true

theorem skip_visit (visit : pending.visit = true) (before : ∀ other ∈ left, other.visit = false) :
    skipFirst (left ++ pending :: right) = left ++ { pending with visit := false } :: right := by
  induction left with
  | nil => simp only [List.nil_append, skipFirst, visit, if_true]
  | cons other left ih =>
    have unvisited := before other List.mem_cons_self
    simp only [List.cons_append, skipFirst, unvisited, Bool.false_eq_true, if_false]
    rw [ih fun another member => before another (List.mem_cons_of_mem _ member)]

/-- After the callback the timer is still where the pass came to it. -/
theorem pushed_visit {new : List PendingTimer} (pushes : Pushes timers new)
    (found : timers.find? (·.visit) = some pending) :
    ∃ left right, new = left ++ pending :: right ∧ new.eraseP (·.visit) = left ++ right ∧ pending.visit = true := by
  obtain ⟨left, right, rfl, visit, before⟩ := first_visit found
  obtain ⟨fresh, rfl, unvisited⟩ := pushes
  refine ⟨fresh ++ left, right, (List.append_assoc _ _ _).symm, ?_, visit⟩
  rw [← List.append_assoc]
  apply erase_visit visit
  intro other member
  rcases List.mem_append.mp member with new | old
  · exact unvisited other new
  · exact before other old

end Lists

section Steps

variable {kernel : Kernel} {maxChunks fuel : Nat} {connection new : Connection} {left right : List PendingTimer}
  {pending : PendingTimer} {closers releasers : Nat}

theorem holding_erase (holding : Holding connection closers releasers) (split : connection.timers = left ++ pending :: right)
    (stays : pending.timer ≠ .destroy ∧ pending.timer ≠ .free) {delayTimer : Bool}
    (delays : tally (left ++ right) .delay = if delayTimer then 1 else 0) :
    Holding { connection with timers := left ++ right, delayTimer } closers releasers where
  unreleased := holding.unreleased
  destroys := by
    have destroys := holding.destroys
    rw [split, tally_middle, if_neg stays.1] at destroys
    exact destroys
  frees := by
    have frees := holding.frees
    rw [split, tally_middle, if_neg stays.2] at frees
    exact frees
  delays := delays
  plain := by
    intro tcp
    have plain := holding.plain tcp
    rw [split, tally_middle] at plain
    show tally (left ++ right) .connected = 0
    omega
  apart := by
    have inside : ∀ other ∈ left ++ right, other ∈ connection.timers := by
      intro other member
      rw [split]
      rcases List.mem_append.mp member with before | after
      · exact List.mem_append_left _ before
      · exact List.mem_append_right _ (List.mem_cons_of_mem _ after)
    intro some_ other member connected
    obtain ⟨visit, others⟩ := holding.apart some_ other (inside other member) connected
    exact ⟨visit, fun another here kind => others another (inside another here) kind⟩
  lookups := holding.lookups
  offline := holding.offline

/-- Besides the timer that releases the socket there is only the one that delays. -/
theorem others_delay (holding : Holding connection closers releasers) (one : closers + releasers = 1)
    (split : connection.timers = left ++ pending :: right) (leaves : pending.timer = .destroy ∨ pending.timer = .free)
    (visit : pending.visit = true) : ∀ other ∈ left ++ right, other.timer = .delay := by
  have destroys := holding.destroys
  have frees := holding.frees
  rw [split, tally_middle] at destroys frees
  have alone : tally (left ++ right) .destroy = 0 ∧ tally (left ++ right) .free = 0 := by
    rcases leaves with kind | kind
    · rw [if_pos kind] at destroys
      omega
    · rw [if_pos kind] at frees
      omega
  intro other member
  have inside : other ∈ connection.timers := by
    rw [split]
    rcases List.mem_append.mp member with before | after
    · exact List.mem_append_left _ before
    · exact List.mem_append_right _ (List.mem_cons_of_mem _ after)
  have here : pending ∈ connection.timers := by simp [split]
  cases kind : other.timer with
  | delay => rfl
  | destroy => exact absurd kind (absent_of_tally alone.1 other member)
  | free => exact absurd kind (absent_of_tally alone.2 other member)
  | connected =>
    obtain ⟨-, others⟩ := holding.apart (by omega) other inside kind
    have unvisited := others pending here leaves
    rw [visit] at unvisited
    cases unvisited

/-- After `ape_socket_free` nothing holds the socket any more. -/
theorem free_releases (holding : Holding connection closers releasers) (one : closers + releasers = 1)
    (offline : connection.state = .offline) (ends : Ends connection (closedEvents connection.callbacks))
    (split : connection.timers = left ++ pending :: right) (leaves : pending.timer = .destroy ∨ pending.timer = .free)
    (visit : pending.visit = true) :
    Released { connection.apeSocketFree with timers := connection.apeSocketFree.timers.eraseP (·.visit) } where
  freed := rfl
  timers := by
    have delays := others_delay holding one split leaves visit
    have keeps : pending.timer ≠ .delay := by
      rcases leaves with kind | kind
      · rw [kind]
        decide
      · rw [kind]
        decide
    have gone : ∀ front : List PendingTimer, (∀ other ∈ front, other.timer = .delay) →
        front.filter (·.timer ≠ .delay) = [] := by
      intro front all
      rw [List.filter_eq_nil_iff]
      intro other member
      simp [all other member]
    show (if connection.delayTimer then connection.timers.filter (·.timer ≠ .delay) else connection.timers).eraseP
      (·.visit) = []
    split_ifs with set
    · rw [split, List.filter_append, List.filter_cons_of_pos (by simp [keeps]),
        gone left fun other member => delays other (List.mem_append_left _ member),
        gone right fun other member => delays other (List.mem_append_right _ member)]
      exact List.eraseP_cons_of_pos visit
    · have none := holding.delays
      rw [if_neg set, split, tally_middle, if_neg keeps] at none
      have empty : left ++ right = [] := by
        apply List.eq_nil_iff_forall_not_mem.mpr
        intro other member
        exact absent_of_tally none other member (delays other member)
      obtain ⟨rfl, rfl⟩ := List.append_eq_nil_iff.mp empty
      rw [split]
      exact List.eraseP_cons_of_pos visit
  lookups := by
    have lookups := holding.lookups
    rw [holding.offline offline] at lookups
    exact lookups
  ends := ends_emit ends [.free]

theorem alive_erase (alive : Alive connection) (split : connection.timers = left ++ pending :: right)
    (stays : pending.timer ≠ .destroy ∧ pending.timer ≠ .free) {delayTimer : Bool}
    (delays : ∀ closers releasers, Holding connection closers releasers →
      tally (left ++ right) .delay = if delayTimer then 1 else 0) :
    Alive { connection with timers := left ++ right, delayTimer } := by
  let erased := { connection with timers := left ++ right, delayTimer }
  apply @alive_holds connection erased alive rfl rfl rfl
  exact fun closers releasers holding => holding_erase holding split stays (delays closers releasers holding)

/-- A timer that is to destroy or to free the socket says which state that is in. -/
theorem alive_destroy (alive : Alive connection) {pending : PendingTimer} (member : pending ∈ connection.timers)
    (kind : pending.timer = .destroy) : connection.state = .shutdown := by
  unfold Alive at alive
  split at alive
  · exact absurd kind (absent_of_tally alive.1.destroys pending member)
  · exact absurd kind (absent_of_tally alive.1.destroys pending member)
  · exact absurd kind (absent_of_tally alive.1.destroys pending member)
  · rename_i state
    exact state
  · exact absurd kind (absent_of_tally alive.1.destroys pending member)

theorem alive_free (alive : Alive connection) {pending : PendingTimer} (member : pending ∈ connection.timers)
    (kind : pending.timer = .free) : connection.state = .offline := by
  unfold Alive at alive
  split at alive
  · exact absurd kind (absent_of_tally alive.1.frees pending member)
  · exact absurd kind (absent_of_tally alive.1.frees pending member)
  · exact absurd kind (absent_of_tally alive.1.frees pending member)
  · exact absurd kind (absent_of_tally alive.1.frees pending member)
  · rename_i state
    exact state

theorem alive_unreleased (alive : Alive connection) : connection.freed = false := by
  unfold Alive at alive
  split at alive
  all_goals exact alive.1.unreleased

theorem runTimer_grows {timer : SocketTimer} {calls : List ConnectionCall}
    (ran : connection.runTimer kernel maxChunks fuel timer calls = .ok new) : Grows connection new := by
  unfold Connection.runTimer at ran
  split at ran
  · cases ran
    exact grows_emit connection _
  · split at ran
    · exact callback_grows ran
    · rw [Connection.destroyNow] at ran
      split at ran
      · cases ran
        exact grows_refl _
      · obtain ⟨closed, closing, rfl⟩ := returned_map ran
        have grows := (asks_closing (fun middle new => performAll_asks middle new calls) closing).grows
        exact grows.trans ⟨⟨_, rfl⟩, rfl, rfl⟩
    · cases ran
      exact ⟨⟨_, rfl⟩, rfl, rfl⟩
    · obtain ⟨middle, performed, rfl⟩ := returned_map ran
      apply (perform_asks connection middle _ performed).grows.trans
      exact grows_same rfl rfl rfl

theorem runTimer_held (alive : Alive connection) (found : connection.timers.find? (·.visit) = some pending)
    {calls : List ConnectionCall} (ran : connection.runTimer kernel maxChunks fuel pending.timer calls = .ok new)
    (orderly : OrderlyLog new) :
    Alive { new with timers := new.timers.eraseP (·.visit) } ∨
      Released { new with timers := new.timers.eraseP (·.visit) } := by
  have member := List.mem_of_find?_eq_some found
  unfold Connection.runTimer at ran
  simp only [alive_unreleased alive, Bool.false_eq_true, ite_false] at ran
  split at ran
  · rename_i kind
    have told := alive_emit alive (show [ConnectionEvent.onConnected].filter visible = [] from rfl)
    have kept := callback_kept alive told ran orderly
    obtain ⟨left, right, split, erased, -⟩ := pushed_visit kept.timers found
    rw [erased]
    refine .inl (alive_erase kept.alive split (by rw [kind]; decide) fun closers releasers holding => ?_)
    have delays := holding.delays
    rw [split, tally_middle, if_neg (by rw [kind]; decide)] at delays
    exact delays
  · rename_i kind
    have shut := alive_destroy alive member kind
    obtain ⟨holding, ends⟩ := (alive_shutdown shut).mp alive
    rw [Connection.destroyNow, if_neg (by rw [shut]; decide)] at ran
    obtain ⟨closed, closing, rfl⟩ := returned_map ran
    have freeing : Grows closed closed.apeSocketFree := ⟨⟨_, rfl⟩, rfl, rfl⟩
    obtain ⟨offline, held, told, pushes⟩ :=
      closing_closed (fun middle new => performAll_asks middle new calls) (fun _ _ => performAll_rests) holding ends closing
        (freeing.orderly orderly)
    obtain ⟨left, right, split, -, visit⟩ := pushed_visit pushes found
    exact .inr (free_releases held rfl offline told split (.inl kind) visit)
  · rename_i kind
    have offline := alive_free alive member kind
    obtain ⟨holding, ends⟩ := (alive_offline offline).mp alive
    cases ran
    obtain ⟨left, right, split, -, visit⟩ := pushed_visit (pushes_refl connection.timers) found
    exact .inr (free_releases holding rfl offline ends split (.inr kind) visit)
  · rename_i kind
    obtain ⟨middle, performed, rfl⟩ := returned_map ran
    have past : Grows middle { middle with delayTimer := false } := grows_same rfl rfl rfl
    have kept := call_kept alive performed (past.orderly orderly)
    obtain ⟨left, right, split, erased, -⟩ := pushed_visit kept.timers found
    refine .inl ?_
    show Alive { middle with timers := middle.timers.eraseP (·.visit), delayTimer := false }
    rw [erased]
    refine alive_erase kept.alive split (by rw [kind]; decide) fun closers releasers holding => ?_
    have delays := holding.delays
    rw [split, tally_middle, if_pos kind] at delays
    split at delays
    · rw [Nat.add_right_cancel delays]
      rfl
    · cases delays

def Held (connection : Connection) : Prop := Alive connection ∨ Released connection

def answered (connection : Connection) : Connection :=
  { connection with lookups := connection.lookups - 1 }.emit [.connect connection.state (connection.lookups - 1)]

inductive Stepped (kernel : Kernel) (maxChunks fuel : Nat) (connection : Connection) : Connection → Prop
  | stays : Stepped kernel maxChunks fuel connection connection
  | called {call : ConnectionCall} {new : Connection} (unreleased : connection.freed = false)
    (performed : connection.perform kernel maxChunks fuel call = .ok new) : Stepped kernel maxChunks fuel connection new
  | dispatched {event : LoopEvent} {new : Connection} (unreleased : connection.freed = false)
    (ran : connection.dispatch kernel maxChunks fuel event = .ok new) : Stepped kernel maxChunks fuel connection new
  | late (waits : connection.lookups ≠ 0) (released : connection.freed = true) :
    Stepped kernel maxChunks fuel connection ((answered connection).emit [.touched])
  | resolved {dialed : Option Dialed} {onDisconnect : List ConnectionCall} {new : Connection}
    (waits : connection.lookups ≠ 0)
    (ready : (answered connection).readyToConnect dialed
      (fun connection => connection.performAll kernel maxChunks fuel onDisconnect) = .ok new) :
    Stepped kernel maxChunks fuel connection new
  | started (idle : connection.idle = true) :
    Stepped kernel maxChunks fuel connection
      { connection with timers := connection.timers.map ({ · with visit := true }) }
  | skipped {pending : PendingTimer} (found : connection.timers.find? (·.visit) = some pending)
    (delays : pending.timer = .delay) :
    Stepped kernel maxChunks fuel connection { connection with timers := skipFirst connection.timers }
  | ran {pending : PendingTimer} {calls : List ConnectionCall} {new : Connection}
    (found : connection.timers.find? (·.visit) = some pending)
    (returned : connection.runTimer kernel maxChunks fuel pending.timer calls = .ok new) :
    Stepped kernel maxChunks fuel connection { new with timers := new.timers.eraseP (·.visit) }

theorem step_cases {step : ConnectionStep} (stepped : connection.step kernel maxChunks fuel step = .ok new) :
    Stepped kernel maxChunks fuel connection new := by
  cases step with
  | call call =>
    simp only [Connection.step] at stepped
    split at stepped
    · cases stepped
      exact .stays
    · rename_i unreleased
      exact .called (Bool.not_eq_true _ |>.mp unreleased) stepped
  | event event =>
    simp only [Connection.step] at stepped
    split at stepped
    · cases stepped
      exact .stays
    · rename_i runs
      exact .dispatched (Bool.not_eq_true _ |>.mp fun freed => runs (.inl freed)) stepped
  | resolved dialed onDisconnect =>
    simp only [Connection.step] at stepped
    split at stepped
    · cases stepped
      exact .stays
    · rename_i runs
      have waits : connection.lookups ≠ 0 := fun none => runs (.inl none)
      split at stepped
      · rename_i released
        cases stepped
        exact .late waits released
      · exact .resolved waits stepped
  | process =>
    simp only [Connection.step] at stepped
    cases stepped
    split
    · rename_i idle
      exact .started idle
    · exact .stays
  | timer due calls =>
    simp only [Connection.step] at stepped
    split at stepped
    · cases stepped
      exact .stays
    · rename_i pending found
      split at stepped
      · rename_i skips
        cases stepped
        exact .skipped found skips.1
      · obtain ⟨last, ran, rfl⟩ := returned_map stepped
        exact .ran found ran

theorem step_grows {step : ConnectionStep} (stepped : connection.step kernel maxChunks fuel step = .ok new) :
    Grows connection new := by
  have asked : Grows connection (answered connection) := ⟨⟨_, rfl⟩, rfl, rfl⟩
  cases step_cases stepped with
  | stays => exact grows_refl _
  | called unreleased performed => exact (perform_asks connection new _ performed).grows
  | dispatched unreleased ran => exact dispatch_grows ran
  | late waits released => exact asked.trans (grows_emit _ _)
  | resolved waits ready =>
    have calls := fun middle new => @performAll_asks kernel maxChunks fuel middle new
    exact asked.trans (asks_readyToConnect (fun middle new => calls middle new _) (gone_connect _ _ _) ready).grows
  | started idle => exact grows_same rfl rfl rfl
  | skipped found delays => exact grows_same rfl rfl rfl
  | ran found returned =>
    apply (runTimer_grows returned).trans
    exact grows_same rfl rfl rfl

/-- As many timers of each kind hold the socket. -/
theorem holding_tallies (holding : Holding connection closers releasers) {timers : List PendingTimer}
    (tallies : ∀ timer, tally timers timer = tally connection.timers timer)
    (apart : 0 < closers + releasers → ∀ pending ∈ timers, pending.timer = .connected → pending.visit = true ∧
      ∀ other ∈ timers, other.timer = .destroy ∨ other.timer = .free → other.visit = false) :
    Holding { connection with timers } closers releasers where
  unreleased := holding.unreleased
  destroys := (tallies .destroy).trans holding.destroys
  frees := (tallies .free).trans holding.frees
  delays := (tallies .delay).trans holding.delays
  plain := fun tcp => (tallies .connected).trans (holding.plain tcp)
  apart := apart
  lookups := holding.lookups
  offline := holding.offline

/-- A pass begins when no other is running: then no connection waits for a socket that is going to be released. -/
theorem alive_process (alive : Alive connection) (idle : connection.idle = true) :
    Alive { connection with timers := connection.timers.map ({ · with visit := true }) } := by
  let marked : Connection := { connection with timers := connection.timers.map ({ · with visit := true }) }
  apply @alive_holds connection marked alive rfl rfl rfl
  intro closers releasers holding
  apply holding_tallies holding
  · intro timer
    simp only [tally, List.countP_map, Function.comp_def]
  · intro some_ pending member connected
    obtain ⟨old, inside, rfl⟩ := List.mem_map.mp member
    have waits := (holding.apart some_ old inside connected).1
    have unvisited := List.all_eq_true.mp idle old inside
    rw [waits] at unvisited
    cases unvisited

theorem alive_skip (alive : Alive connection) (found : connection.timers.find? (·.visit) = some pending)
    (kind : pending.timer = .delay) : Alive { connection with timers := skipFirst connection.timers } := by
  obtain ⟨left, right, split, visit, before⟩ := first_visit found
  let skipped := { connection with timers := skipFirst connection.timers }
  have timers : skipped.timers = left ++ { pending with visit := false } :: right := by
    simp only [skipped]
    rw [split]
    exact skip_visit visit before
  have inside : ∀ other ∈ skipped.timers, other.timer ≠ .delay → other ∈ connection.timers := by
    intro other member differs
    rw [timers] at member
    rw [split]
    rcases List.mem_append.mp member with front | back
    · exact List.mem_append_left _ front
    · rcases List.mem_cons.mp back with rfl | back
      · exact absurd kind differs
      · exact List.mem_append_right _ (List.mem_cons_of_mem _ back)
  apply @alive_holds connection skipped alive rfl rfl rfl
  intro closers releasers holding
  apply holding_tallies holding
  · intro timer
    show tally skipped.timers timer = _
    rw [timers, split, tally_middle, tally_middle]
  · intro some_ other member connected
    obtain ⟨visit, others⟩ := holding.apart some_ other (inside other member (by rw [connected]; decide)) connected
    refine ⟨visit, fun another here leaves => others another (inside another here ?_) leaves⟩
    rcases leaves with leaves | leaves
    · rw [leaves]
      decide
    · rw [leaves]
      decide

theorem alive_resolved (alive : Alive connection) (some_ : connection.lookups ≠ 0) {dialed : Option Dialed}
    {onDisconnect : List ConnectionCall}
    (ready : (answered connection).readyToConnect dialed
      (fun connection => connection.performAll kernel maxChunks fuel onDisconnect) = .ok new)
    (orderly : OrderlyLog new) : Alive new := by
  let counted := { connection with lookups := connection.lookups - 1 }
  have calls := fun middle new => @performAll_asks kernel maxChunks fuel middle new onDisconnect
  have grows := (@asks_readyToConnect new (answered connection) _ calls _ (gone_connect _ _ _) ready).grows
  obtain ⟨-, open_, open'⟩ := @asked_orderly counted new _ _ grows orderly
  obtain ⟨holding, ends⟩ := (alive_open open_ open').mp alive
  have lookups := holding.lookups
  have cleared : Alive { answered connection with dnsState := false } := by
    refine (@alive_open { answered connection with dnsState := false } open_ open').mpr ⟨?_, ?_⟩
    · refine holding.same ⟨rfl, rfl, rfl, rfl⟩ ?_ ?_
      · show connection.lookups - 1 = 0
        split at lookups
        · omega
        · exact absurd lookups some_
      · exact fun gone => absurd gone open'
    · refine ends_same ?_ ends
      show (connection.log ++ [_]).filter visible = _
      rw [List.filter_append]
      exact List.append_nil _
  have kept := @readyToConnect_kept (answered connection) new _ calls (fun _ _ => performAll_rests) open_ open' dialed
    cleared ready orderly
  exact kept.alive

theorem step_held (held : Held connection) {step : ConnectionStep}
    (stepped : connection.step kernel maxChunks fuel step = .ok new) (orderly : OrderlyLog new) : Held new := by
  rcases held with alive | released
  · cases step_cases stepped with
    | stays => exact .inl alive
    | called unreleased performed => exact .inl (call_kept alive performed orderly).alive
    | dispatched unreleased ran => exact .inl (dispatch_kept alive ran orderly).alive
    | late waits released => cases (alive_unreleased alive).symm.trans released
    | resolved waits ready => exact .inl (alive_resolved alive waits ready orderly)
    | started idle => exact .inl (alive_process alive idle)
    | skipped found delays => exact .inl (alive_skip alive found delays)
    | ran found returned => exact runTimer_held alive found returned orderly
  · have none : connection.timers.find? (·.visit) = none := by
      rw [released.timers]
      rfl
    refine .inr ?_
    cases step_cases stepped with
    | stays => exact released
    | called unreleased performed => cases unreleased.symm.trans released.freed
    | dispatched unreleased ran => cases unreleased.symm.trans released.freed
    | late waits freed => exact absurd released.lookups waits
    | resolved waits ready => exact absurd released.lookups waits
    | started idle =>
      have timers : connection.timers.map ({ · with visit := true }) = [] := by
        rw [released.timers]
        rfl
      exact ⟨released.freed, timers, released.lookups, released.ends⟩
    | skipped found delays => cases none.symm.trans found
    | ran found returned => cases none.symm.trans found

end Steps

section Runs

variable {kernel : Kernel} {maxChunks fuel : Nat} {start connection : Connection} {steps : List ConnectionStep}

theorem run_grows (reached : runAll (Connection.step kernel maxChunks fuel) start steps = .ok connection) :
    Grows start connection :=
  runAll_related grows_refl (fun _ _ _ => Grows.trans) (fun _ _ _ => step_grows) reached

theorem run_held (held : Held start) (reached : runAll (Connection.step kernel maxChunks fuel) start steps = .ok connection)
    (orderly : OrderlyLog connection) : Held connection := by
  apply runAll_within held ?_ ?_ reached orderly
  · exact fun state step next before stepped => step_held before stepped
  · exact fun state step next stepped => (step_grows stepped).orderly

end Runs

/-- The visible part of a log says how far the socket is. -/
def Shaped (callbacks : SocketCallbacks) (log : List ConnectionEvent) : Prop :=
  ∃ before after, (∀ event ∈ before, delivers event = true) ∧ log.filter visible = before ++ after ∧
    (after = [] ∨ after = closedEvents callbacks ∨ after = closedEvents callbacks ++ [.free])

theorem held_shape {connection : Connection} (held : Held connection) : Shaped connection.callbacks connection.log := by
  have shaped : ∀ after, Ends connection after →
      (after = [] ∨ after = closedEvents connection.callbacks ∨ after = closedEvents connection.callbacks ++ [.free]) →
      Shaped connection.callbacks connection.log := by
    rintro after ⟨before, delivered, log⟩ which
    exact ⟨before, after, delivered, log, which⟩
  rcases held with alive | released
  · unfold Alive at alive
    split at alive
    · exact shaped _ alive.2 (.inl rfl)
    · exact shaped _ alive.2 (.inl rfl)
    · exact shaped _ alive.2 (.inl rfl)
    · exact shaped _ alive.2 (.inl rfl)
    · exact shaped _ alive.2 (.inr (.inl rfl))
  · exact shaped _ released.ends (.inr (.inr rfl))

theorem shaped_untouched {callbacks : SocketCallbacks} {log : List ConnectionEvent} (shaped : Shaped callbacks log) :
    .touched ∉ log ∧ log.count .free ≤ 1 := by
  obtain ⟨before, after, delivered, split, which⟩ := shaped
  have none : ∀ event, delivers event = false → event ∉ before := by
    intro event other member
    rw [delivered event member] at other
    cases other
  have closed : .touched ∉ closedEvents callbacks ∧ (closedEvents callbacks).count .free = 0 := by
    unfold closedEvents closingEvents
    cases callbacks.onDisconnect <;> decide
  have late : .touched ∉ after ∧ after.count .free ≤ 1 := by
    rcases which with rfl | rfl | rfl
    · exact ⟨List.not_mem_nil, by simp⟩
    · exact ⟨closed.1, by rw [closed.2]; omega⟩
    · rw [List.count_append, closed.2]
      refine ⟨fun member => ?_, by decide⟩
      rcases List.mem_append.mp member with here | last
      · exact closed.1 here
      · cases List.mem_singleton.mp last
  constructor
  · intro member
    have shown : .touched ∈ log.filter visible := List.mem_filter.mpr ⟨member, rfl⟩
    rw [split] at shown
    rcases List.mem_append.mp shown with early | last
    · exact none .touched rfl early
    · exact late.1 last
  · have count : (log.filter visible).count .free = log.count .free := List.count_filter rfl
    rw [split, List.count_append, List.count_eq_zero_of_not_mem (none .free rfl)] at count
    omega

/-- A call of `APE_socket_connect`, or an answered lookup. -/
def connects : ConnectionEvent → Bool
  | .connect _ _ => true
  | _ => false

/-- `APE_socket_new`. -/
def newSocket (limit total : SizeT) (proto : Protocol) (callbacks : SocketCallbacks) : Connection :=
  ({ world := freshSocket limit total, proto, callbacks, client := false } : Connection).setState .pending

/-- A socket that was accepted, or is being connected. -/
def openedSocket (limit total : SizeT) (accepted : Bool) (callbacks : SocketCallbacks) : Connection :=
  ({ world := freshSocket limit total, callbacks } : Connection).setState (if accepted then .online else .progress)

theorem newSocket_held (limit total : SizeT) (proto : Protocol) (callbacks : SocketCallbacks) :
    Held (newSocket limit total proto callbacks) := by
  have holding : Holding (newSocket limit total proto callbacks) 0 0 :=
    { unreleased := rfl, destroys := rfl, frees := rfl, delays := rfl, plain := fun _ => rfl, apart := fun _ => nofun,
      lookups := rfl, offline := fun _ => rfl }
  have ends : Ends (newSocket limit total proto callbacks) [] := ⟨[], by simp, rfl⟩
  exact .inl ⟨holding, ends⟩

theorem openedSocket_held (limit total : SizeT) (accepted : Bool) (callbacks : SocketCallbacks) :
    Held (openedSocket limit total accepted callbacks) := by
  have holding : Holding (openedSocket limit total accepted callbacks) 0 0 :=
    { unreleased := rfl, destroys := rfl, frees := rfl, delays := rfl, plain := fun _ => rfl, apart := fun _ => nofun,
      lookups := rfl, offline := fun _ => rfl }
  have ends : Ends (openedSocket limit total accepted callbacks) [] := ⟨[], by simp, rfl⟩
  cases accepted with
  | false => exact .inl ⟨holding, ends⟩
  | true => exact .inl ⟨holding, ends⟩

/-- Whatever is called and in whatever order, the socket is closed once at most, its descriptor with it, and freed once at
    most and after that; nothing is delivered behind that. -/
theorem closed_once (kernel : Kernel) (maxChunks fuel : Nat) (limit total : SizeT) (accepted : Bool)
    (callbacks : SocketCallbacks) (steps : List ConnectionStep) {connection : Connection}
    (reached : runAll (Connection.step kernel maxChunks fuel) (openedSocket limit total accepted callbacks) steps =
      .ok connection) (unconnected : ∀ event ∈ connection.log, connects event = false) :
    Shaped callbacks connection.log := by
  have grows := run_grows reached
  have same : connection.callbacks = callbacks := grows.callbacks
  have orderly : OrderlyLog connection := by
    intro event member
    have this := unconnected event member
    rw [show connection.proto = .tcp from grows.proto]
    cases event with
    | created timer others => cases timer <;> first | trivial | nofun
    | connect state lookups => cases this
    | _ => trivial
  have shape := held_shape (run_held (openedSocket_held limit total accepted callbacks) reached orderly)
  rw [same] at shape
  exact shape

/-- The peer sends a byte and closes, `on_read` asks for a shutdown later, and the next pass frees the socket. -/
def closedByPeer : List ConnectionStep :=
  [.event { readable := true, reads := [.bytes [0x41#8], .bytes []], onRead := [.shutdownDelay] }, .process, .timer true []]

def logOf (start : Connection) (steps : List ConnectionStep) : Except Stop (List ConnectionEvent) :=
  (runAll (Connection.step generous 1 1) start steps).map (·.log)

theorem closed_once_by_peer :
    ∃ log, logOf (openedSocket 0#64 0#64 true {}) closedByPeer = .ok log ∧ Shaped {} log := by
  have ran : ∃ log, logOf (openedSocket 0#64 0#64 true {}) closedByPeer = .ok log ∧
      log.all (!connects ·) = true := ⟨_, rfl, rfl⟩
  obtain ⟨log, logged, unconnected⟩ := ran
  refine ⟨log, logged, ?_⟩
  obtain ⟨connection, reached, rfl⟩ := returned_map logged
  apply closed_once generous 1 1 0#64 0#64 true {} closedByPeer reached
  intro event member
  exact Bool.not_eq_true' _ |>.mp (List.all_eq_true.mp unconnected event member)

/-- As long as nothing asks for the release of the socket before the pass that runs `ape_socket_connected`, it is released
    once at most, and no callback is given it after that. -/
theorem never_touched (kernel : Kernel) (maxChunks fuel : Nat) (limit total : SizeT) (proto : Protocol)
    (callbacks : SocketCallbacks) (steps : List ConnectionStep) {connection : Connection}
    (reached : runAll (Connection.step kernel maxChunks fuel) (newSocket limit total proto callbacks) steps =
      .ok connection) (orderly : OrderlyLog connection) :
    .touched ∉ connection.log ∧ connection.log.count .free ≤ 1 :=
  shaped_untouched (held_shape (run_held (newSocket_held limit total proto callbacks) reached orderly))

/-- The socket is connected, and shut down when `on_connected` was called. -/
def connectedFirst : List ConnectionStep :=
  [.call (.connect 53#16 (.answered (some .started)) []), .process, .timer true [.shutdownNow []], .process, .timer true []]

def connectedLog : List ConnectionEvent :=
  [.connect .pending 0, .created .connected [], .onConnected, .leave, .created .destroy [{ timer := .connected, visit := true }],
    .close, .onDisconnect, .closeFd, .eventsDel, .free]

theorem never_touched_connected : logOf (newSocket 0#64 0#64 .udp {}) connectedFirst = .ok connectedLog ∧
    .touched ∉ connectedLog ∧ connectedLog.count .free ≤ 1 := by
  have logged : logOf (newSocket 0#64 0#64 .udp {}) connectedFirst = .ok connectedLog := by rfl
  refine ⟨logged, ?_⟩
  obtain ⟨connection, reached, same⟩ := returned_map logged
  rw [← same]
  apply never_touched generous 1 1 0#64 0#64 .udp {} connectedFirst reached
  have orderly : ∀ event ∈ connectedLog, Orderly .udp event := by
    simp [connectedLog, Orderly]
  intro event member
  rw [(run_grows reached).proto]
  rw [same] at member
  exact orderly event member

/-- The socket is shut down before the pass that would call `on_connected`. -/
def shutFirst : List ConnectionStep :=
  [.call (.connect 53#16 (.answered (some .started)) []), .call (.shutdownNow []), .process, .timer true [], .timer true []]

/-- The newer timer frees the socket, and the older one is given it. -/
theorem connected_after_free : ∃ connection,
    runAll (Connection.step generous 1 1) (newSocket 0#64 0#64 .udp {}) shutFirst = .ok connection ∧
      .touched ∈ connection.log := by
  have ran : logOf (newSocket 0#64 0#64 .udp {}) shutFirst =
      .ok [.connect .pending 0, .created .connected [], .leave, .created .destroy [{ timer := .connected }],
        .close, .onDisconnect, .closeFd, .eventsDel, .free, .touched] := by rfl
  obtain ⟨connection, reached, log⟩ := returned_map ran
  refine ⟨connection, reached, ?_⟩
  rw [log]
  decide

end ZapeProof
