import Zape.Ape.Connection
import Zape.Ape.Typing
import Zape.Ape.Blocking

/-! The timers that hold a socket: it is closed once, and released once after that. -/
namespace ZapeProof

open Machine ZapeModel

def tally (timers : List PendingTimer) (timer : SocketTimer) : Nat := timers.countP (·.timer = timer)

/-- Nothing asks for the release of a socket while `ape_socket_connected` waits for it behind the running pass, and it is
    only connected as long as it was not shut down, by one lookup at a time. -/
def Orderly (proto : Protocol) : ConnectionEvent → Prop
  | .created .destroy others | .created .free others =>
    proto = .udp → ∀ pending ∈ others, pending.timer = .connected → pending.visit = true
  | .connect state lookups => lookups = 0 ∧ state ≠ .shutdown ∧ state ≠ .offline
  | _ => True

def OrderlyLog (connection : Connection) : Prop := ∀ event ∈ connection.log, Orderly connection.proto event

/-- What closing and releasing consist of, and the callbacks that must not come after it. -/
def visible : ConnectionEvent → Bool
  | .onRead _ | .onDrain | .onDisconnect | .close | .closeFd | .eventsDel | .free | .touched => true
  | _ => false

def delivers : ConnectionEvent → Bool
  | .onRead _ | .onDrain => true
  | _ => false

def closingEvents (callbacks : SocketCallbacks) : List ConnectionEvent :=
  .close :: if callbacks.onDisconnect then [.onDisconnect] else []

def closedEvents (callbacks : SocketCallbacks) : List ConnectionEvent :=
  closingEvents callbacks ++ [.closeFd, .eventsDel]

/-- The visible events are some of `on_read` and `on_drain`, and these behind them. -/
def Ends (connection : Connection) (events : List ConnectionEvent) : Prop :=
  ∃ before, (∀ event ∈ before, delivers event = true) ∧ connection.log.filter visible = before ++ events

/-- The timers of a socket that was not released: so many of them will close or release it. -/
structure Holding (connection : Connection) (closers releasers : Nat) : Prop where
  unreleased : connection.freed = false
  destroys : tally connection.timers .destroy = closers
  frees : tally connection.timers .free = releasers
  delays : tally connection.timers .delay = if connection.delayTimer then 1 else 0
  plain : connection.proto = .tcp → tally connection.timers .connected = 0
  apart : 0 < closers + releasers → ∀ pending ∈ connection.timers, pending.timer = .connected → pending.visit = true ∧
    ∀ other ∈ connection.timers, other.timer = .destroy ∨ other.timer = .free → other.visit = false
  lookups : connection.lookups = if connection.dnsState then 1 else 0
  offline : connection.state = .offline → connection.dnsState = false

/-- What will release the socket depends on its state. -/
def Alive (connection : Connection) : Prop :=
  match connection.state with
  | .online | .progress | .pending => Holding connection 0 0 ∧ Ends connection []
  | .shutdown => Holding connection 1 0 ∧ Ends connection []
  | .offline => Holding connection 0 1 ∧ Ends connection (closedEvents connection.callbacks)

structure Released (connection : Connection) : Prop where
  freed : connection.freed = true
  timers : connection.timers = []
  lookups : connection.lookups = 0
  ends : Ends connection (closedEvents connection.callbacks ++ [.free])

/-- What calls of the application log; the rest comes from the loop. -/
def asks : ConnectionEvent → Bool
  | .onDisconnect | .leave | .close | .closeFd | .eventsDel | .created _ _ | .connect _ _ | .sendfile _ => true
  | _ => false

def closed (state : SocketState) : Bool := state = .shutdown ∨ state = .offline

/-- Whether the socket left and was not connected since. -/
def gone (log : List ConnectionEvent) : Bool :=
  log.foldl (fun gone event => match event with
    | .leave => true
    | .connect _ _ => false
    | _ => gone) false

/-- The log goes on by what calls leave there; they do not bring a stream online, nor a socket that left. -/
structure Asks (old new : Connection) : Prop where
  log : ∃ events, new.log = old.log ++ events ∧ ∀ event ∈ events, asks event = true
  proto : new.proto = old.proto
  callbacks : new.callbacks = old.callbacks
  online : old.proto = .tcp → new.state = .online → old.state = .online
  gone : (gone old.log = true → closed old.state = true) → gone new.log = true → closed new.state = true

structure Grows (old new : Connection) : Prop where
  log : ∃ events, new.log = old.log ++ events
  proto : new.proto = old.proto
  callbacks : new.callbacks = old.callbacks

section Sends

variable {kernel : Kernel} {maxChunks fuel : Nat}

theorem sendfile_state {world next : World} {file : Option Nat} {ret : Int}
    (returned : apeSendfile kernel fuel file world = some (.ok (next, ret))) :
    next.socket.state = world.socket.state := by
  unfold apeSendfile at returned
  split at returned
  · cases returned
    rfl
  · split at returned
    · cases returned
      rfl
    · split at returned
      · cases returned
      · split at returned
        · exact (queueFile_steady (Option.some.inj returned)).1
        · rename_i fd _ _ _ _
          have post := @loop_result _ _ (sendTurn kernel fd) world
            (fun called => called.socket.state = world.socket.state)
            (fun result => ∀ next ret, result = .ok (next, ret) → next.socket.state = world.socket.state) ?_ fuel _ rfl
            returned
          · exact post next ret rfl
          · intro called same
            rw [sendTurn]
            split
            · exact .inl ⟨_, rfl, same⟩
            · refine .inr ⟨_, rfl, fun next ret queued => ?_⟩
              exact (queueFile_steady queued).1.trans same
            · refine .inr ⟨_, rfl, fun next ret result => ?_⟩
              cases result
              exact same

theorem performApi_leaves {world next : World} {call : ApiCall}
    (performed : world.performApi kernel maxChunks fuel call = .ok next)
    (open_ : call = .shutdown → world.socket.state = .online)
    (sends : call ≠ .socket .writable ∧ call ≠ .socket .doJobs) : Leaves world next := by
  cases call with
  | socket call =>
    cases call with
    | write data dataType =>
      obtain ⟨ret, returned⟩ := outcome_first performed
      exact (write_sent returned).state
    | writable => exact absurd rfl sends.1
    | doJobs => exact absurd rfl sends.2
  | sendfile file =>
    obtain ⟨ret, returned⟩ := outcome_first performed
    exact .inl (sendfile_state returned)
  | shutdown => exact (shutdown_sent (open_ rfl) (Option.some.inj (outcome_ok performed))).state

end Sends

section Grows

variable {old middle new connection : Connection}

theorem grows_refl (connection : Connection) : Grows connection connection := ⟨⟨[], by simp⟩, rfl, rfl⟩

theorem Grows.trans (first : Grows old middle) (second : Grows middle new) : Grows old new where
  log := by
    obtain ⟨early, log⟩ := first.log
    obtain ⟨late, log'⟩ := second.log
    exact ⟨early ++ late, by rw [log', log, List.append_assoc]⟩
  proto := second.proto.trans first.proto
  callbacks := second.callbacks.trans first.callbacks

theorem grows_same (log : new.log = old.log) (proto : new.proto = old.proto) (callbacks : new.callbacks = old.callbacks) :
    Grows old new := ⟨⟨[], by rw [log, List.append_nil]⟩, proto, callbacks⟩

theorem grows_emit (connection : Connection) (events : List ConnectionEvent) : Grows connection (connection.emit events) :=
  ⟨⟨events, rfl⟩, rfl, rfl⟩

theorem grows_dispatch (connection : Connection) (timer : SocketTimer) :
    Grows connection (connection.dispatchAsync timer) := ⟨⟨_, rfl⟩, rfl, rfl⟩

theorem Grows.orderly (grows : Grows old new) (orderly : OrderlyLog new) : OrderlyLog old := by
  obtain ⟨events, log⟩ := grows.log
  intro event member
  rw [← grows.proto]
  apply orderly
  rw [log]
  exact List.mem_append_left _ member

theorem gone_append (log events : List ConnectionEvent) (stays : .leave ∉ events) (left : gone (log ++ events) = true) :
    gone log = true := by
  induction events generalizing log with
  | nil =>
    rw [List.append_nil] at left
    exact left
  | cons event events ih =>
    rw [List.append_cons] at left
    have before := ih (log ++ [event]) (fun member => stays (List.mem_cons_of_mem _ member)) left
    rw [gone, List.foldl_append] at before
    cases event with
    | leave => exact absurd List.mem_cons_self stays
    | connect state lookups => cases before
    | _ => exact before

theorem gone_connect (log : List ConnectionEvent) (state : SocketState) (lookups : Nat) :
    gone (log ++ [.connect state lookups]) = false := by rw [gone, List.foldl_append, List.foldl_cons, List.foldl_nil]

theorem Asks.grows (asked : Asks old new) : Grows old new := by
  obtain ⟨events, log, -⟩ := asked.log
  exact ⟨⟨events, log⟩, asked.proto, asked.callbacks⟩

theorem asks_refl (connection : Connection) : Asks connection connection := ⟨⟨[], by simp⟩, rfl, rfl, fun _ => id, id⟩

theorem Asks.trans (first : Asks old middle) (second : Asks middle new) : Asks old new where
  log := by
    obtain ⟨early, log, asked⟩ := first.log
    obtain ⟨late, log', asked'⟩ := second.log
    refine ⟨early ++ late, by rw [log', log, List.append_assoc], fun event member => ?_⟩
    rcases List.mem_append.mp member with before | after
    · exact asked event before
    · exact asked' event after
  proto := second.proto.trans first.proto
  callbacks := second.callbacks.trans first.callbacks
  online := fun tcp online => first.online tcp (second.online (first.proto.trans tcp) online)
  gone := fun before => second.gone (first.gone before)

theorem asks_same (log : new.log = old.log) (proto : new.proto = old.proto) (callbacks : new.callbacks = old.callbacks)
    (state : new.state = old.state ∨ closed new.state = true) : Asks old new where
  log := ⟨[], by rw [log, List.append_nil], by simp⟩
  proto := proto
  callbacks := callbacks
  online := by
    intro tcp online
    rcases state with same | leaves
    · exact same.symm.trans online
    · rw [online] at leaves
      cases leaves
  gone := by
    intro before left
    rcases state with same | leaves
    · rw [log] at left
      rw [same]
      exact before left
    · exact leaves

theorem asks_emit (connection : Connection) {events : List ConnectionEvent} (all : ∀ event ∈ events, asks event = true)
    (stays : .leave ∉ events ∨ closed connection.state = true) : Asks connection (connection.emit events) where
  log := ⟨events, rfl, all⟩
  proto := rfl
  callbacks := rfl
  online := fun _ => id
  gone := by
    intro before left
    rcases stays with stays | leaves
    · exact before (gone_append connection.log events stays left)
    · exact leaves

theorem asks_dispatch (connection : Connection) (timer : SocketTimer) :
    Asks connection (connection.dispatchAsync timer) := by
  have created := @asks_emit { connection with timers := { timer } :: connection.timers } [.created timer connection.timers]
    (by simp [asks]) (.inl (by simp))
  exact ⟨created.log, rfl, rfl, created.online, created.gone⟩

theorem asks_destroyAsync (connection : Connection) : Asks connection connection.destroyAsync := by
  rw [Connection.destroyAsync]
  split
  · exact asks_refl connection
  · exact asks_dispatch connection .destroy

theorem shut_state (connection : Connection) (online : connection.state = .online) :
    connection.shut.state = .shutdown := by
  rw [Connection.shut, if_neg (not_not.mpr online)]
  rfl

theorem asks_shut (connection : Connection) : Asks connection connection.shut := by
  rw [Connection.shut]
  split
  · exact asks_refl connection
  · apply Asks.trans ?_ (asks_destroyAsync _)
    exact asks_same rfl rfl rfl (.inr rfl)

theorem asks_leave (online : connection.state = .online) : Asks connection (connection.emit [.leave]).shut := by
  have shut := asks_shut (connection.emit [.leave])
  obtain ⟨events, log, asked⟩ := shut.log
  refine { log := ⟨.leave :: events, ?_, ?_⟩, proto := shut.proto, callbacks := shut.callbacks, online := fun _ _ => online,
           gone := fun _ _ => ?_ }
  · rw [log]
    exact List.append_assoc connection.log [.leave] events
  · intro event member
    rcases List.mem_cons.mp member with rfl | later
    · rfl
    · exact asked event later
  · rw [shut_state (connection.emit [.leave]) online]
    rfl

theorem leaves_closed {old new : World} (leaves : Leaves old new) :
    new.socket.state = old.socket.state ∨ closed new.socket.state = true := by
  apply leaves.imp_right
  rintro ⟨-, shut⟩
  rw [shut]
  rfl

theorem asks_follow (connection : Connection) (now : Bool) {world : World} (leaves : Leaves connection.world world) :
    Asks connection (connection.follow now world) := by
  have stays : Asks connection { connection with world } := asks_same rfl rfl rfl (leaves_closed leaves)
  rw [Connection.follow]
  split
  · rename_i shut
    have left : closed world.socket.state = true := by
      rw [shut.2]
      rfl
    cases now with
    | false => exact stays.trans (asks_destroyAsync _)
    | true => exact (stays.trans (asks_emit _ (by simp [asks]) (.inr left))).trans (asks_destroyAsync _)
  · exact stays

variable {called : Connection → Except Stop Connection}

theorem asks_closing {connection new : Connection} (asked : ∀ middle new, called middle = .ok new → Asks middle new)
    (closed : connection.closing called = .ok new) : Asks connection new := by
  rw [Connection.closing] at closed
  obtain ⟨last, ran, rfl⟩ := returned_map closed
  let invalidated :=
    if connection.dnsState then { connection with dnsState := false, lookups := connection.lookups - 1 } else connection
  have starts : Asks connection ((invalidated.setState .offline).emit [.close]) := by
    refine Asks.trans ?_ (asks_emit _ (by simp [asks]) (.inr rfl))
    simp only [invalidated]
    split
    · exact asks_same rfl rfl rfl (.inr rfl)
    · exact asks_same rfl rfl rfl (.inr rfl)
  refine Asks.trans ?_ (asks_emit last (by simp [asks]) (.inl (by simp)))
  split at ran
  · exact (starts.trans (asks_emit _ (by simp [asks]) (.inr rfl))).trans (asked _ _ ran)
  · cases ran
    exact starts

theorem asks_destroying (asked : ∀ middle new, called middle = .ok new → Asks middle new)
    (destroyed : connection.destroying called = .ok new) : Asks connection new := by
  rw [Connection.destroying] at destroyed
  split at destroyed
  · cases destroyed
    exact asks_refl _
  · obtain ⟨closed, ran, rfl⟩ := returned_map destroyed
    have stays : Asks connection { connection with world := connection.world.emit [.destroy] } :=
      asks_same rfl rfl rfl (.inl rfl)
    exact (stays.trans (asks_closing asked ran)).trans (asks_dispatch closed .free)

theorem asks_readyToConnect (asked : ∀ middle new, called middle = .ok new → Asks middle new) {dialed : Option Dialed}
    (back : gone connection.log = false) (ready : connection.readyToConnect dialed called = .ok new) :
    Asks connection new := by
  have stays : Asks connection { connection with dnsState := false } := asks_same rfl rfl rfl (.inl rfl)
  unfold Connection.readyToConnect at ready
  dsimp only at ready
  split at ready
  · exact stays.trans (asks_destroying asked ready)
  · exact stays.trans (asks_destroying asked ready)
  · cases ready
    exact stays
  · split at ready
    · cases ready
      refine ⟨⟨[], (List.append_nil _).symm, by simp⟩, rfl, rfl, fun _ => nofun, fun _ left => ?_⟩
      cases back.symm.trans left
    · rename_i udp
      cases ready
      refine ⟨⟨[.created .connected connection.timers], rfl, by simp [asks]⟩, rfl, rfl, ?_, fun _ left => ?_⟩
      · intro tcp
        cases udp.symm.trans tcp
      · cases back.symm.trans (gone_append connection.log [.created .connected connection.timers] (by simp) left)

theorem asks_connecting (asked : ∀ middle new, called middle = .ok new → Asks middle new) {port : BitVec 16}
    {lookup : Lookup} (connected : connection.connecting port lookup called = .ok new) :
    Asks (connection.emit [.connect connection.state connection.lookups]) new := by
  unfold Connection.connecting at connected
  dsimp only at connected
  split at connected
  · exact asks_destroying asked connected
  · split at connected
    · cases connected
      exact asks_same rfl rfl rfl (.inl rfl)
    · exact asks_readyToConnect asked (gone_connect _ _ _) connected

section Calls

variable {kernel : Kernel} {maxChunks fuel : Nat}

mutual

theorem perform_asks (connection new : Connection) (call : ConnectionCall)
    (performed : connection.perform kernel maxChunks fuel call = .ok new) : Asks connection new := by
  cases call with
  | write data dataType =>
    obtain ⟨world, sent, rfl⟩ := returned_map performed
    exact asks_follow connection true (performApi_leaves sent nofun ⟨nofun, nofun⟩)
  | sendfile file =>
    obtain ⟨world, sent, rfl⟩ := returned_map performed
    have leaves := performApi_leaves sent nofun ⟨nofun, nofun⟩
    exact (asks_emit connection (by simp [asks]) (.inl (by simp))).trans (asks_follow (connection.emit [_]) false leaves)
  | shutdown onDisconnect =>
    simp only [Connection.perform] at performed
    split at performed
    · cases performed
      exact asks_refl connection
    · cases performed
      exact asks_refl connection
    · exact asks_destroying (fun middle new => performAll_asks middle new onDisconnect) performed
    · exact asks_destroying (fun middle new => performAll_asks middle new onDisconnect) performed
    · rename_i online
      obtain ⟨world, sent, rfl⟩ := returned_map performed
      exact asks_follow connection false (performApi_leaves sent (fun _ => online) ⟨nofun, nofun⟩)
  | shutdownNow onDisconnect =>
    simp only [Connection.perform] at performed
    split at performed
    · cases performed
      exact asks_refl connection
    · cases performed
      exact asks_refl connection
    · exact asks_destroying (fun middle new => performAll_asks middle new onDisconnect) performed
    · exact asks_destroying (fun middle new => performAll_asks middle new onDisconnect) performed
    · rename_i online
      cases performed
      exact asks_leave online
  | shutdownDelay =>
    simp only [Connection.perform] at performed
    cases performed
    split
    · exact asks_refl connection
    · apply Asks.trans ?_ (asks_dispatch _ .delay)
      exact asks_same rfl rfl rfl (.inl rfl)
  | connect port lookup onDisconnect =>
    simp only [Connection.perform] at performed
    exact (asks_emit _ (by simp [asks]) (.inl (by simp))).trans
      (asks_connecting (fun middle new => performAll_asks middle new onDisconnect) performed)

theorem performAll_asks (connection new : Connection) (calls : List ConnectionCall)
    (performed : connection.performAll kernel maxChunks fuel calls = .ok new) : Asks connection new := by
  cases calls with
  | nil =>
    simp only [Connection.performAll] at performed
    cases performed
    exact asks_refl connection
  | cons call calls =>
    simp only [Connection.performAll] at performed
    obtain ⟨middle, first, rest⟩ := returned_bind performed
    exact (perform_asks connection middle call first).trans (performAll_asks middle new calls rest)

end

end Calls

end Grows

section Timers

variable {connection old middle new : Connection} {closers releasers : Nat}

@[simp] theorem tally_cons (pending : PendingTimer) (timers : List PendingTimer) (timer : SocketTimer) :
    tally (pending :: timers) timer = tally timers timer + if pending.timer = timer then 1 else 0 := by
  simp [tally, List.countP_cons]

theorem tally_dispatch (connection : Connection) (timer other : SocketTimer) :
    tally (connection.dispatchAsync timer).timers other =
      tally connection.timers other + if timer = other then 1 else 0 := tally_cons _ _ _

theorem absent_of_tally {timers : List PendingTimer} {timer : SocketTimer} (none : tally timers timer = 0) :
    ∀ pending ∈ timers, pending.timer ≠ timer := by
  intro pending member
  have this := List.countP_eq_zero.mp none pending member
  simpa using this

/-- The new timers are in front, and the running pass does not come to them. -/
def Pushes (old new : List PendingTimer) : Prop :=
  ∃ fresh, new = fresh ++ old ∧ ∀ pending ∈ fresh, pending.visit = false

theorem pushes_refl (timers : List PendingTimer) : Pushes timers timers := ⟨[], rfl, by simp⟩

theorem pushes_dispatch (connection : Connection) (timer : SocketTimer) :
    Pushes connection.timers (connection.dispatchAsync timer).timers := ⟨[{ timer }], rfl, by simp⟩

theorem Pushes.trans {first second third : List PendingTimer} (left : Pushes first second) (right : Pushes second third) :
    Pushes first third := by
  obtain ⟨early, rfl, unvisited⟩ := left
  obtain ⟨late, rfl, unvisited'⟩ := right
  refine ⟨late ++ early, (List.append_assoc _ _ _).symm, ?_⟩
  intro pending member
  rcases List.mem_append.mp member with new | old
  · exact unvisited' pending new
  · exact unvisited pending old

structure SameHolders (old new : Connection) : Prop where
  freed : new.freed = old.freed
  timers : new.timers = old.timers
  delayTimer : new.delayTimer = old.delayTimer
  proto : new.proto = old.proto

theorem Holding.same (holding : Holding old closers releasers) (same : SameHolders old new)
    (lookups : new.lookups = if new.dnsState then 1 else 0) (offline : new.state = .offline → new.dnsState = false) :
    Holding new closers releasers where
  unreleased := same.freed.trans holding.unreleased
  destroys := same.timers ▸ holding.destroys
  frees := same.timers ▸ holding.frees
  delays := by
    rw [same.timers, same.delayTimer]
    exact holding.delays
  plain := by
    rw [same.timers, same.proto]
    exact holding.plain
  apart := by
    rw [same.timers]
    exact holding.apart
  lookups := lookups
  offline := offline

structure SameHold (old new : Connection) : Prop where
  freed : new.freed = old.freed
  timers : new.timers = old.timers
  delayTimer : new.delayTimer = old.delayTimer
  proto : new.proto = old.proto
  lookups : new.lookups = old.lookups
  dnsState : new.dnsState = old.dnsState

theorem SameHold.holding (same : SameHold old new) (holding : Holding old closers releasers)
    (offline : new.state = .offline → old.state = .offline) : Holding new closers releasers := by
  refine holding.same ⟨same.freed, same.timers, same.delayTimer, same.proto⟩ ?_ ?_
  · rw [same.lookups, same.dnsState]
    exact holding.lookups
  · exact fun gone => same.dnsState.trans (holding.offline (offline gone))

theorem holding_delay (holding : Holding connection closers releasers) (unset : connection.delayTimer = false) :
    Holding ({ connection with delayTimer := true }.dispatchAsync .delay) closers releasers where
  unreleased := holding.unreleased
  destroys := (tally_dispatch _ _ .destroy).trans (congrArg (· + _) holding.destroys)
  frees := (tally_dispatch _ _ .free).trans (congrArg (· + _) holding.frees)
  delays := by
    have delays := holding.delays
    rw [unset] at delays
    simpa [Connection.dispatchAsync, Connection.emit] using delays
  plain := fun tcp => (tally_dispatch _ _ .connected).trans (congrArg (· + _) (holding.plain tcp))
  apart := by
    intro some_ pending member connected
    rcases List.mem_cons.mp member with rfl | member
    · cases connected
    · obtain ⟨visit, others⟩ := holding.apart some_ pending member connected
      refine ⟨visit, fun other inside kind => ?_⟩
      rcases List.mem_cons.mp inside with rfl | inside
      · rfl
      · exact others other inside kind
  lookups := holding.lookups
  offline := holding.offline

theorem holding_connected (holding : Holding connection 0 0) (udp : connection.proto = .udp) :
    Holding (connection.dispatchAsync .connected) 0 0 where
  unreleased := holding.unreleased
  destroys := (tally_dispatch _ _ .destroy).trans (congrArg (· + _) holding.destroys)
  frees := (tally_dispatch _ _ .free).trans (congrArg (· + _) holding.frees)
  delays := (tally_dispatch connection _ .delay).trans holding.delays
  plain := by
    intro tcp
    cases tcp.symm.trans udp
  apart := fun some_ => absurd some_ (by omega)
  lookups := holding.lookups
  offline := holding.offline

/-- The connections that wait are all in the running pass, and the new timer is not. -/
theorem apart_pushed (holding : Holding connection 0 0) {timer : SocketTimer} (leaves : timer = .destroy ∨ timer = .free)
    (orderly : Orderly connection.proto (.created timer connection.timers)) :
    ∀ pending ∈ (connection.dispatchAsync timer).timers, pending.timer = .connected → pending.visit = true ∧
      ∀ other ∈ (connection.dispatchAsync timer).timers, other.timer = .destroy ∨ other.timer = .free →
        other.visit = false := by
  have waits : connection.proto = .udp → ∀ pending ∈ connection.timers, pending.timer = .connected → pending.visit = true := by
    rcases leaves with rfl | rfl
    · exact orderly
    · exact orderly
  intro pending member connected
  rcases List.mem_cons.mp member with rfl | member
  · rcases leaves with rfl | rfl
    · cases connected
    · cases connected
  · have udp : connection.proto = .udp := by
      cases proto : connection.proto with
      | udp => rfl
      | tcp => exact absurd connected (absent_of_tally (holding.plain proto) pending member)
    refine ⟨waits udp pending member connected, fun other inside kind => ?_⟩
    rcases List.mem_cons.mp inside with rfl | inside
    · rfl
    · rcases kind with kind | kind
      · exact absurd kind (absent_of_tally holding.destroys other inside)
      · exact absurd kind (absent_of_tally holding.frees other inside)

theorem holding_destroy (holding : Holding connection 0 0)
    (orderly : Orderly connection.proto (.created .destroy connection.timers)) :
    Holding (connection.dispatchAsync .destroy) 1 0 where
  unreleased := holding.unreleased
  destroys := (tally_dispatch _ _ .destroy).trans (congrArg (· + _) holding.destroys)
  frees := (tally_dispatch _ _ .free).trans (congrArg (· + _) holding.frees)
  delays := (tally_dispatch connection _ .delay).trans holding.delays
  plain := fun tcp => (tally_dispatch _ _ .connected).trans (congrArg (· + _) (holding.plain tcp))
  apart := fun _ => apart_pushed holding (.inl rfl) orderly
  lookups := holding.lookups
  offline := holding.offline

theorem holding_free (holding : Holding connection 0 0)
    (orderly : Orderly connection.proto (.created .free connection.timers)) :
    Holding (connection.dispatchAsync .free) 0 1 where
  unreleased := holding.unreleased
  destroys := (tally_dispatch _ _ .destroy).trans (congrArg (· + _) holding.destroys)
  frees := (tally_dispatch _ _ .free).trans (congrArg (· + _) holding.frees)
  delays := (tally_dispatch connection _ .delay).trans holding.delays
  plain := fun tcp => (tally_dispatch _ _ .connected).trans (congrArg (· + _) (holding.plain tcp))
  apart := fun _ => apart_pushed holding (.inr rfl) orderly
  lookups := holding.lookups
  offline := holding.offline

end Timers

section Ends

variable {connection new : Connection} {events : List ConnectionEvent}

theorem ends_same (log : new.log.filter visible = connection.log.filter visible) (ends : Ends connection events) :
    Ends new events := by
  obtain ⟨before, delivered, split⟩ := ends
  exact ⟨before, delivered, log.trans split⟩

theorem ends_emit (ends : Ends connection events) (more : List ConnectionEvent) :
    Ends (connection.emit more) (events ++ more.filter visible) := by
  obtain ⟨before, delivered, split⟩ := ends
  refine ⟨before, delivered, ?_⟩
  show (connection.log ++ more).filter visible = _
  rw [List.filter_append, split, List.append_assoc]

theorem ends_delivered (ends : Ends connection []) {event : ConnectionEvent} (delivered : delivers event = true) :
    Ends (connection.emit [event]) [] := by
  obtain ⟨before, all, split⟩ := ends
  refine ⟨before ++ [event], ?_, ?_⟩
  · intro other member
    rcases List.mem_append.mp member with old | new
    · exact all other old
    · rw [List.mem_singleton.mp new]
      exact delivered
  · show (connection.log ++ [event]).filter visible = _
    have shown : visible event = true := by
      cases event <;> first | rfl | cases delivered
    rw [List.filter_append, split, List.filter_cons_of_pos shown, List.append_nil, List.append_nil]
    rfl

end Ends

section Alive

variable {connection old middle new : Connection}

theorem alive_open (open_ : connection.state ≠ .shutdown) (open' : connection.state ≠ .offline) :
    Alive connection ↔ Holding connection 0 0 ∧ Ends connection [] := by
  unfold Alive
  cases state : connection.state with
  | online | progress | pending => exact Iff.rfl
  | shutdown => exact absurd state open_
  | offline => exact absurd state open'

theorem alive_shutdown (state : connection.state = .shutdown) :
    Alive connection ↔ Holding connection 1 0 ∧ Ends connection [] := by
  unfold Alive
  rw [state]

theorem alive_offline (state : connection.state = .offline) :
    Alive connection ↔ Holding connection 0 1 ∧ Ends connection (closedEvents connection.callbacks) := by
  unfold Alive
  rw [state]

end Alive

theorem asked_orderly {connection new : Connection} {state : SocketState} {lookups : Nat}
    (grows : Grows (connection.emit [.connect state lookups]) new) (orderly : OrderlyLog new) :
    lookups = 0 ∧ state ≠ .shutdown ∧ state ≠ .offline :=
  grows.orderly orderly _ (List.mem_append_right _ (List.mem_singleton_self _))

/-- What calls do to a socket that is closed: at most they create the timer that delays. -/
structure Rests (old new : Connection) : Prop where
  state : new.state = .offline
  holding : ∀ closers releasers, Holding old closers releasers → Holding new closers releasers
  ends : new.log.filter visible = old.log.filter visible
  timers : Pushes old.timers new.timers

section Offline

variable {kernel : Kernel} {maxChunks fuel : Nat} {connection middle new : Connection}

theorem rests_refl (offline : connection.state = .offline) : Rests connection connection :=
  ⟨offline, fun _ _ => id, rfl, pushes_refl _⟩

theorem Rests.trans {old : Connection} (first : Rests old middle) (second : Rests middle new) : Rests old new where
  state := second.state
  holding := fun closers releasers holding => second.holding closers releasers (first.holding closers releasers holding)
  ends := second.ends.trans first.ends
  timers := first.timers.trans second.timers

theorem rests_emit (offline : connection.state = .offline) {events : List ConnectionEvent}
    (hidden : events.filter visible = []) : Rests connection (connection.emit events) := by
  have same : SameHold connection (connection.emit events) := ⟨rfl, rfl, rfl, rfl, rfl, rfl⟩
  refine ⟨offline, fun _ _ holding => same.holding holding id, ?_, pushes_refl _⟩
  show (connection.log ++ events).filter visible = _
  rw [List.filter_append, hidden, List.append_nil]

theorem follow_rests (offline : connection.state = .offline) (now : Bool) {world : World}
    (leaves : Leaves connection.world world) : Rests connection (connection.follow now world) := by
  have state : world.socket.state = .offline := by
    rcases leaves with same | ⟨online, -⟩
    · exact same.trans offline
    · cases offline.symm.trans online
  have stays : connection.follow now world = { connection with world } := by
    rw [Connection.follow, if_neg]
    rintro ⟨online, -⟩
    cases offline.symm.trans online
  rw [stays]
  have same : SameHold connection { connection with world } := ⟨rfl, rfl, rfl, rfl, rfl, rfl⟩
  exact ⟨state, fun closers releasers holding => same.holding holding fun _ => offline, rfl, pushes_refl _⟩

theorem delay_rests (offline : connection.state = .offline) (unset : connection.delayTimer = false) :
    Rests connection ({ connection with delayTimer := true }.dispatchAsync .delay) where
  state := offline
  holding := fun _ _ holding => holding_delay holding unset
  ends := by
    show (connection.log ++ [_]).filter visible = _
    rw [List.filter_append]
    exact List.append_nil _
  timers := pushes_dispatch _ .delay

/-- Of the calls on a closed socket only a new connection would do anything else. -/
theorem perform_rests (offline : connection.state = .offline) {call : ConnectionCall}
    (performed : connection.perform kernel maxChunks fuel call = .ok new) (orderly : OrderlyLog new) :
    Rests connection new := by
  cases call with
  | write data dataType =>
    obtain ⟨world, sent, rfl⟩ := returned_map performed
    exact follow_rests offline true (performApi_leaves sent nofun ⟨nofun, nofun⟩)
  | sendfile file =>
    obtain ⟨world, sent, rfl⟩ := returned_map performed
    have leaves := performApi_leaves sent nofun ⟨nofun, nofun⟩
    have asked := @rests_emit connection offline [.sendfile (Connection.unasked connection.world file)] rfl
    exact asked.trans (follow_rests asked.state false leaves)
  | shutdown onDisconnect =>
    simp only [Connection.perform, offline] at performed
    cases performed
    exact rests_refl offline
  | shutdownNow onDisconnect =>
    simp only [Connection.perform, offline] at performed
    cases performed
    exact rests_refl offline
  | shutdownDelay =>
    simp only [Connection.perform] at performed
    cases performed
    split
    · exact rests_refl offline
    · rename_i unset
      exact delay_rests offline (Bool.not_eq_true _ ▸ unset)
  | connect port lookup onDisconnect =>
    simp only [Connection.perform] at performed
    have asked := asks_connecting (fun middle new => performAll_asks middle new onDisconnect) performed
    exact absurd offline (asked_orderly asked.grows orderly).2.2

theorem performAll_rests {calls : List ConnectionCall} (offline : connection.state = .offline)
    (performed : connection.performAll kernel maxChunks fuel calls = .ok new) (orderly : OrderlyLog new) :
    Rests connection new := by
  induction calls generalizing connection with
  | nil =>
    simp only [Connection.performAll] at performed
    cases performed
    exact rests_refl offline
  | cons call calls ih =>
    simp only [Connection.performAll] at performed
    obtain ⟨middle, first, rest⟩ := returned_bind performed
    have early := perform_rests offline first ((performAll_asks middle new calls rest).grows.orderly orderly)
    exact early.trans (ih early.state rest)

end Offline

/-- The socket is still held by what will release it, and a running pass does not come to new timers. -/
structure Kept (old new : Connection) : Prop where
  alive : Alive new
  timers : Pushes old.timers new.timers

section Open

variable {connection new : Connection} {called : Connection → Except Stop Connection} {closers releasers : Nat}

theorem kept_refl (alive : Alive connection) : Kept connection connection := ⟨alive, pushes_refl _⟩

theorem closing_closed (asked : ∀ middle new, called middle = .ok new → Asks middle new)
    (rests : ∀ middle new, middle.state = .offline → called middle = .ok new → OrderlyLog new → Rests middle new)
    (holding : Holding connection closers releasers) (ends : Ends connection [])
    (closed : connection.closing called = .ok new) (orderly : OrderlyLog new) :
    new.state = .offline ∧ Holding new closers releasers ∧ Ends new (closedEvents new.callbacks) ∧
      Pushes connection.timers new.timers := by
  rw [Connection.closing] at closed
  obtain ⟨last, ran, rfl⟩ := returned_map closed
  let invalidated :=
    if connection.dnsState then { connection with dnsState := false, lookups := connection.lookups - 1 } else connection
  let offline := (invalidated.setState .offline).emit [.close]
  have fields : invalidated.timers = connection.timers ∧ invalidated.callbacks = connection.callbacks ∧
      invalidated.log = connection.log ∧ Holding offline closers releasers := by
    have lookups := holding.lookups
    by_cases waits : connection.dnsState = true
    · rw [if_pos waits] at lookups
      have is : invalidated = { connection with dnsState := false, lookups := connection.lookups - 1 } := if_pos waits
      refine ⟨by rw [is], by rw [is], by rw [is], ?_⟩
      simp only [offline, is]
      refine holding.same ⟨rfl, rfl, rfl, rfl⟩ ?_ ?_
      · show connection.lookups - 1 = 0
        omega
      · exact fun _ => rfl
    · have is : invalidated = connection := if_neg waits
      refine ⟨by rw [is], by rw [is], by rw [is], ?_⟩
      simp only [offline, is]
      refine holding.same ⟨rfl, rfl, rfl, rfl⟩ holding.lookups ?_
      exact fun _ => Bool.not_eq_true _ |>.mp waits
  obtain ⟨timers, callbacks, log, held⟩ := fields
  have begun : Ends offline [.close] := by
    have same : Ends (invalidated.setState .offline) [] := ends_same (congrArg (List.filter visible) log) ends
    exact ends_emit same [.close]
  have still : offline.callbacks = connection.callbacks := callbacks
  have before : offline.timers = connection.timers := timers
  have past := (grows_emit last [.closeFd, .eventsDel]).orderly orderly
  have ending : last.state = .offline ∧ last.callbacks = connection.callbacks ∧ Holding last closers releasers ∧
      Ends last (closingEvents connection.callbacks) ∧ Pushes connection.timers last.timers := by
    split at ran
    · rename_i set
      have gone : (offline.emit [.onDisconnect]).state = .offline := rfl
      have calm := rests _ _ gone ran past
      have more := asked _ _ ran
      have told : Ends (offline.emit [.onDisconnect]) (closingEvents connection.callbacks) := by
        rw [closingEvents, if_pos set]
        exact ends_emit begun [.onDisconnect]
      have emitted : SameHold offline (offline.emit [.onDisconnect]) := ⟨rfl, rfl, rfl, rfl, rfl, rfl⟩
      refine ⟨calm.state, more.callbacks.trans still, calm.holding _ _ (emitted.holding held fun _ => rfl),
        ends_same calm.ends told, ?_⟩
      rw [← before]
      exact calm.timers
    · rename_i unset
      cases ran
      refine ⟨rfl, still, held, ?_, ?_⟩
      · rw [closingEvents, if_neg unset]
        exact begun
      · rw [before]
        exact pushes_refl _
  obtain ⟨state, same, holding', ends', pushes⟩ := ending
  have emitted : SameHold last (last.emit [.closeFd, .eventsDel]) := ⟨rfl, rfl, rfl, rfl, rfl, rfl⟩
  refine ⟨state, emitted.holding holding' id, ?_, pushes⟩
  show Ends _ (closedEvents last.callbacks)
  rw [same]
  exact ends_emit ends' [.closeFd, .eventsDel]

theorem destroying_kept (asked : ∀ middle new, called middle = .ok new → Asks middle new)
    (rests : ∀ middle new, middle.state = .offline → called middle = .ok new → OrderlyLog new → Rests middle new)
    (open_ : connection.state ≠ .shutdown) (alive : Alive connection)
    (destroyed : connection.destroying called = .ok new) (orderly : OrderlyLog new) : Kept connection new := by
  rw [Connection.destroying] at destroyed
  split at destroyed
  · cases destroyed
    exact kept_refl alive
  · rename_i open'
    obtain ⟨closed, ran, rfl⟩ := returned_map destroyed
    obtain ⟨holding, ends⟩ := (alive_open open_ open').mp alive
    let marked := { connection with world := connection.world.emit [.destroy] }
    have same : SameHold connection marked := ⟨rfl, rfl, rfl, rfl, rfl, rfl⟩
    have past := (grows_dispatch closed .free).orderly orderly
    obtain ⟨state, held, told, pushes⟩ :=
      @closing_closed marked closed called 0 0 asked rests (same.holding holding id) ends ran past
    have ordered : Orderly closed.proto (.created .free closed.timers) :=
      orderly _ (List.mem_append_right _ (List.mem_singleton_self _))
    have later := pushes.trans (pushes_dispatch closed .free)
    refine ⟨(@alive_offline (closed.dispatchAsync .free) state).mpr ⟨holding_free held ordered, ?_⟩, later⟩
    have more := ends_emit told [.created .free closed.timers]
    rw [show [ConnectionEvent.created .free closed.timers].filter visible = [] from rfl, List.append_nil] at more
    exact more

theorem alive_holds (alive : Alive connection) (state : new.state = connection.state)
    (log : new.log.filter visible = connection.log.filter visible) (callbacks : new.callbacks = connection.callbacks)
    (holds : ∀ closers releasers, Holding connection closers releasers → Holding new closers releasers) : Alive new := by
  unfold Alive at alive ⊢
  rw [state, callbacks]
  split at alive
  all_goals exact ⟨holds _ _ alive.1, ends_same log alive.2⟩

theorem alive_same (same : SameHold connection new) (state : new.state = connection.state)
    (log : new.log.filter visible = connection.log.filter visible) (callbacks : new.callbacks = connection.callbacks)
    (alive : Alive connection) : Alive new := by
  apply alive_holds alive state log callbacks
  exact fun _ _ holding => same.holding holding fun gone => state ▸ gone

theorem alive_emit (alive : Alive connection) {events : List ConnectionEvent} (hidden : events.filter visible = []) :
    Alive (connection.emit events) := by
  have same : SameHold connection (connection.emit events) := ⟨rfl, rfl, rfl, rfl, rfl, rfl⟩
  refine alive_same same rfl ?_ rfl alive
  show (connection.log ++ events).filter visible = _
  rw [List.filter_append, hidden, List.append_nil]

/-- The socket is shut down, with the timer that will destroy it. -/
theorem destroyAsync_kept (holding : Holding connection 0 0) (ends : Ends connection [])
    (state : connection.state = .shutdown) (orderly : OrderlyLog connection.destroyAsync) :
    Alive connection.destroyAsync ∧ Pushes connection.timers connection.destroyAsync.timers := by
  have dispatched : connection.destroyAsync = connection.dispatchAsync .destroy := by
    rw [Connection.destroyAsync, if_neg]
    rw [state]
    decide
  rw [dispatched] at orderly ⊢
  have ordered : Orderly connection.proto (.created .destroy connection.timers) :=
    orderly _ (List.mem_append_right _ (List.mem_singleton_self _))
  have pushes := pushes_dispatch connection .destroy
  refine ⟨(@alive_shutdown (connection.dispatchAsync .destroy) state).mpr ⟨holding_destroy holding ordered, ?_⟩, pushes⟩
  exact ends_emit ends [.created .destroy connection.timers]

theorem follow_kept (alive : Alive connection) (now : Bool) {world : World} (leaves : Leaves connection.world world)
    (orderly : OrderlyLog (connection.follow now world)) : Kept connection (connection.follow now world) := by
  have same : SameHold connection { connection with world } := ⟨rfl, rfl, rfl, rfl, rfl, rfl⟩
  by_cases shuts : connection.state = .online ∧ world.socket.state = .shutdown
  · obtain ⟨online, shut⟩ := shuts
    have open_ : connection.state ≠ .shutdown := by
      rw [online]
      decide
    have open' : connection.state ≠ .offline := by
      rw [online]
      decide
    obtain ⟨holding, ends⟩ := (alive_open open_ open').mp alive
    have held : Holding { connection with world } 0 0 := by
      apply same.holding holding
      intro gone
      cases shut.symm.trans gone
    have followed : connection.follow now world =
        (if now then { connection with world }.emit [.leave] else { connection with world }).destroyAsync := by
      rw [Connection.follow, if_pos ⟨online, shut⟩]
    rw [followed] at orderly ⊢
    cases now with
    | false =>
      obtain ⟨alive', pushes⟩ := destroyAsync_kept held ends shut orderly
      exact ⟨alive', pushes⟩
    | true =>
      have emitted : SameHold { connection with world } ({ connection with world }.emit [.leave]) :=
        ⟨rfl, rfl, rfl, rfl, rfl, rfl⟩
      have told : Ends ({ connection with world }.emit [.leave]) [] := ends_emit ends [.leave]
      obtain ⟨alive', pushes⟩ := destroyAsync_kept (emitted.holding held id) told shut orderly
      exact ⟨alive', pushes⟩
  · have followed : connection.follow now world = { connection with world } := by
      rw [Connection.follow, if_neg shuts]
    rw [followed]
    have state : world.socket.state = connection.state := by
      rcases leaves with stays | moved
      · exact stays
      · exact absurd moved shuts
    exact ⟨alive_same same state rfl rfl alive, pushes_refl _⟩

theorem shut_kept (alive : Alive connection) (orderly : OrderlyLog connection.shut) : Kept connection connection.shut := by
  rw [Connection.shut] at orderly ⊢
  split at orderly
  · rename_i closed
    rw [if_pos closed]
    exact kept_refl alive
  · rename_i open_
    rw [if_neg open_]
    have online := not_not.mp open_
    obtain ⟨holding, ends⟩ := (alive_open (by rw [online]; decide) (by rw [online]; decide)).mp alive
    let down := { connection with world := connection.world.emit [.shutdown] }.setState .shutdown
    have same : SameHold connection down := ⟨rfl, rfl, rfl, rfl, rfl, rfl⟩
    obtain ⟨alive', pushes⟩ :=
      @destroyAsync_kept down (same.holding holding nofun) ends rfl orderly
    exact ⟨alive', pushes⟩

theorem readyToConnect_kept (asked : ∀ middle new, called middle = .ok new → Asks middle new)
    (rests : ∀ middle new, middle.state = .offline → called middle = .ok new → OrderlyLog new → Rests middle new)
    (open_ : connection.state ≠ .shutdown) (open' : connection.state ≠ .offline) {dialed : Option Dialed}
    (alive : Alive { connection with dnsState := false }) (ready : connection.readyToConnect dialed called = .ok new)
    (orderly : OrderlyLog new) : Kept connection new := by
  let answered := { connection with dnsState := false }
  obtain ⟨holding, ends⟩ := (@alive_open answered open_ open').mp alive
  have destroys : answered.destroying called = .ok new → Kept connection new := by
    intro destroyed
    have kept := @destroying_kept answered new called asked rests open_ alive destroyed orderly
    exact ⟨kept.alive, kept.timers⟩
  unfold Connection.readyToConnect at ready
  dsimp only at ready
  split at ready
  · exact destroys ready
  · exact destroys ready
  · cases ready
    exact ⟨alive, pushes_refl _⟩
  · split at ready
    · cases ready
      let started := ({ answered with client := true }).setState .progress
      have same : SameHold answered started := ⟨rfl, rfl, rfl, rfl, rfl, rfl⟩
      exact ⟨(@alive_open started nofun nofun).mpr ⟨same.holding holding nofun, ends⟩, pushes_refl _⟩
    · rename_i udp
      cases ready
      let online := ({ answered with client := true }).setState .online
      have same : SameHold answered online := ⟨rfl, rfl, rfl, rfl, rfl, rfl⟩
      have held := @holding_connected online (same.holding holding nofun) udp
      refine ⟨(@alive_open (online.dispatchAsync .connected) nofun nofun).mpr ⟨held, ?_⟩, pushes_dispatch online .connected⟩
      exact @ends_emit online [] ends [.created .connected online.timers]

theorem connecting_kept (asked : ∀ middle new, called middle = .ok new → Asks middle new)
    (rests : ∀ middle new, middle.state = .offline → called middle = .ok new → OrderlyLog new → Rests middle new)
    (alive : Alive connection) {port : BitVec 16} {lookup : Lookup}
    (connected : connection.connecting port lookup called = .ok new) (orderly : OrderlyLog new) :
    Kept connection new := by
  obtain ⟨none, open_, open'⟩ := asked_orderly (asks_connecting asked connected).grows orderly
  let logged := connection.emit [.connect connection.state connection.lookups]
  have alive' : Alive logged := alive_emit alive rfl
  obtain ⟨holding, ends⟩ := (@alive_open logged open_ open').mp alive'
  have answered : logged.dnsState = false := by
    have lookups := holding.lookups
    rw [show logged.lookups = 0 from none] at lookups
    split at lookups
    · cases lookups
    · rename_i unset
      exact Bool.not_eq_true _ |>.mp unset
  unfold Connection.connecting at connected
  dsimp only at connected
  split at connected
  · have kept := @destroying_kept logged new called asked rests open_ alive' connected orderly
    exact ⟨kept.alive, kept.timers⟩
  · split at connected
    · cases connected
      let waiting := { logged with dnsState := true, lookups := logged.lookups + 1 }
      refine ⟨(@alive_open waiting open_ open').mpr ⟨?_, ends⟩, pushes_refl _⟩
      refine holding.same ⟨rfl, rfl, rfl, rfl⟩ ?_ ?_
      · show connection.lookups + 1 = 1
        omega
      · exact fun gone => absurd gone open'
    · have cleared : { logged with dnsState := false } = logged := by
        rw [← answered]
      have kept := @readyToConnect_kept logged new called asked rests open_ open' _ (by rw [cleared]; exact alive') connected
        orderly
      exact ⟨kept.alive, kept.timers⟩

end Open

section Calls

variable {kernel : Kernel} {maxChunks fuel : Nat} {connection new : Connection}

theorem call_kept (alive : Alive connection) {call : ConnectionCall}
    (performed : connection.perform kernel maxChunks fuel call = .ok new) (orderly : OrderlyLog new) :
    Kept connection new := by
  have asked : ∀ onDisconnect middle new, middle.performAll kernel maxChunks fuel onDisconnect = .ok new →
      Asks middle new := fun onDisconnect middle new => performAll_asks middle new onDisconnect
  have rests : ∀ onDisconnect (middle new : Connection), middle.state = .offline →
      middle.performAll kernel maxChunks fuel onDisconnect = .ok new → OrderlyLog new → Rests middle new :=
    fun onDisconnect middle new => performAll_rests
  cases call with
  | write data dataType =>
    obtain ⟨world, sent, rfl⟩ := returned_map performed
    exact follow_kept alive true (performApi_leaves sent nofun ⟨nofun, nofun⟩) orderly
  | sendfile file =>
    obtain ⟨world, sent, rfl⟩ := returned_map performed
    have asked := @alive_emit connection alive [.sendfile (Connection.unasked connection.world file)] rfl
    have kept := follow_kept asked false (performApi_leaves sent nofun ⟨nofun, nofun⟩) orderly
    exact ⟨kept.alive, kept.timers⟩
  | shutdown onDisconnect =>
    simp only [Connection.perform] at performed
    split at performed
    · cases performed
      exact kept_refl alive
    · cases performed
      exact kept_refl alive
    · rename_i state
      exact destroying_kept (asked onDisconnect) (rests onDisconnect) (by rw [state]; decide) alive performed orderly
    · rename_i state
      exact destroying_kept (asked onDisconnect) (rests onDisconnect) (by rw [state]; decide) alive performed orderly
    · rename_i online
      obtain ⟨world, sent, rfl⟩ := returned_map performed
      exact follow_kept alive false (performApi_leaves sent (fun _ => online) ⟨nofun, nofun⟩) orderly
  | shutdownNow onDisconnect =>
    simp only [Connection.perform] at performed
    split at performed
    · cases performed
      exact kept_refl alive
    · cases performed
      exact kept_refl alive
    · rename_i state
      exact destroying_kept (asked onDisconnect) (rests onDisconnect) (by rw [state]; decide) alive performed orderly
    · rename_i state
      exact destroying_kept (asked onDisconnect) (rests onDisconnect) (by rw [state]; decide) alive performed orderly
    · cases performed
      have left : Alive (connection.emit [.leave]) := alive_emit alive rfl
      have kept := shut_kept left orderly
      exact ⟨kept.alive, kept.timers⟩
  | shutdownDelay =>
    simp only [Connection.perform] at performed
    cases performed
    split
    · exact kept_refl alive
    · rename_i unset
      have unset' : connection.delayTimer = false := Bool.not_eq_true _ ▸ unset
      let delayed := { connection with delayTimer := true }.dispatchAsync .delay
      refine ⟨?_, pushes_dispatch _ .delay⟩
      refine @alive_holds connection delayed alive rfl ?_ rfl fun _ _ holding => holding_delay holding unset'
      show (connection.log ++ [_]).filter visible = _
      rw [List.filter_append]
      exact List.append_nil _
  | connect port lookup onDisconnect =>
    simp only [Connection.perform] at performed
    exact connecting_kept (asked onDisconnect) (rests onDisconnect) alive performed orderly

theorem calls_kept (alive : Alive connection) {calls : List ConnectionCall}
    (performed : connection.performAll kernel maxChunks fuel calls = .ok new) (orderly : OrderlyLog new) :
    Kept connection new := by
  induction calls generalizing connection with
  | nil =>
    simp only [Connection.performAll] at performed
    cases performed
    exact kept_refl alive
  | cons call calls ih =>
    simp only [Connection.performAll] at performed
    obtain ⟨middle, first, rest⟩ := returned_bind performed
    have early := call_kept alive first ((performAll_asks middle new calls rest).grows.orderly orderly)
    have later := ih early.alive rest
    exact ⟨later.alive, early.timers.trans later.timers⟩

end Calls

end ZapeProof
