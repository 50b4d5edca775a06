import Zape.Ape.Releasing

/-! Whether an event that says that a stream can be read has it read to the end. -/
namespace ZapeProof

open Machine ZapeModel

def exhausts : ReadReply → Bool
  | .bytes [] | .again | .failed => true
  | _ => false

/-- What `read` and `recvfrom` answered in this part of a log. -/
def readReplies (events : List ConnectionEvent) : List ReadReply :=
  events.filterMap fun
    | .read reply => some reply
    | _ => none

/-- In between `read` was called until there was nothing more to read. -/
def drained (old new : Connection) : Bool := (readReplies (new.log.drop old.log.length)).getLast?.any exhausts

/-- The log goes on, but not by what `read` answers. -/
def Unread (old new : Connection) : Prop := ∃ events, new.log = old.log ++ events ∧ readReplies events = []

section Replies

variable {old middle new connection : Connection}

theorem replies_append (left right : List ConnectionEvent) :
    readReplies (left ++ right) = readReplies left ++ readReplies right := List.filterMap_append

theorem replies_read (replies : List ReadReply) : readReplies (replies.map .read) = replies := by
  rw [readReplies, List.filterMap_map]
  exact List.filterMap_some

theorem replies_none {events : List ConnectionEvent} (all : ∀ event ∈ events, asks event = true) :
    readReplies events = [] := by
  apply List.filterMap_eq_nil_iff.mpr
  intro event member
  have this := all event member
  cases event with
  | read reply => cases this
  | _ => rfl

/-- The loop around `read` stops at the first answer that exhausts the socket. -/
theorem receive_last (replies : List ReadReply) :
    (receive replies).replies.getLast? = some (receive replies).last ∧ exhausts (receive replies).last = true := by
  fun_induction receive replies with
  | case1 => exact ⟨rfl, rfl⟩
  | case2 replies later ih =>
    refine ⟨?_, ih.2⟩
    show (ReadReply.interrupted :: later.replies).getLast? = _
    rw [List.getLast?_cons, ih.1]
    rfl
  | case3 byte bytes replies later ih =>
    refine ⟨?_, ih.2⟩
    show (ReadReply.bytes (byte :: bytes) :: later.replies).getLast? = _
    rw [List.getLast?_cons, ih.1]
    rfl
  | case4 reply replies waits some_ =>
    refine ⟨rfl, ?_⟩
    cases reply with
    | interrupted => exact absurd rfl waits
    | bytes data =>
      cases data with
      | nil => rfl
      | cons byte bytes => exact absurd rfl (some_ byte bytes)
    | again => rfl
    | failed => rfl

theorem unread_refl (connection : Connection) : Unread connection connection := ⟨[], (List.append_nil _).symm, rfl⟩

theorem Unread.trans (first : Unread old middle) (second : Unread middle new) : Unread old new := by
  obtain ⟨early, log, none⟩ := first
  obtain ⟨late, log', none'⟩ := second
  refine ⟨early ++ late, ?_, ?_⟩
  · rw [log', log, List.append_assoc]
  · rw [replies_append, none, none']
    rfl

theorem Asks.unread (asked : Asks old new) : Unread old new := by
  obtain ⟨events, log, all⟩ := asked.log
  exact ⟨events, log, replies_none all⟩

theorem drained_unread {asked : Connection} {events : List ConnectionEvent} (log : asked.log = old.log ++ events)
    (unread : Unread asked new) : drained old new = (readReplies events).getLast?.any exhausts := by
  obtain ⟨later, log', none⟩ := unread
  rw [drained, log', log, List.append_assoc, List.drop_left, replies_append, none, List.append_nil]

end Replies

section Dispatching

variable {kernel : Kernel} {maxChunks fuel : Nat} {connection new : Connection} {event : LoopEvent} {ret : Int}

theorem callback_unread {set : Bool} {told : ConnectionEvent} {calls : List ConnectionCall}
    (unread : readReplies [told] = []) (returned : connection.callback kernel maxChunks fuel set told calls = .ok new) :
    Unread connection new := by
  rcases callback_cases returned with ⟨-, asked⟩ | rfl
  · apply Unread.trans ?_ asked.unread
    exact ⟨[told], rfl, unread⟩
  · exact unread_refl _

theorem doJobs_unread (online : connection.state = .online) {onDrain : List ConnectionCall}
    (done : connection.doJobs kernel maxChunks fuel onDrain = .ok new) : Unread connection new := by
  obtain ⟨world, njobsdone, now, ran, rest⟩ := doJobs_cases done
  have followed := asks_follow connection now (doJobs_flushed online ran).state
  split at rest
  · exact followed.unread.trans (callback_unread rfl rest)
  · cases rest
    exact followed.unread

theorem writable_unread (wrote : connection.writable kernel maxChunks fuel event = .ok new) : Unread connection new := by
  rw [Connection.writable] at wrote
  split at wrote
  · rename_i ready
    exact doJobs_unread ready.1 wrote
  · split at wrote
    · split at wrote
      · exact (destroy_asks wrote).unread
      · have connected : Unread (connection.setState .online) new := callback_unread rfl wrote
        obtain ⟨events, log, none⟩ := connected
        exact ⟨events, log, none⟩
    · cases wrote
      exact unread_refl connection

theorem read_drained (online : connection.state = .online)
    (read : connection.apeSocketRead kernel maxChunks fuel event = .ok (new, ret)) :
    Unread (connection.emit ((receive event.reads).replies.map .read)) new := by
  obtain ⟨middle, called, rest⟩ := read_cases online read
  have early : Unread (connection.emit ((receive event.reads).replies.map .read)) middle := by
    split at called
    · exact callback_unread rfl called
    · cases called
      exact unread_refl _
  split at rest
  · exact early.trans (destroy_asks rest.1).unread
  · rw [rest.1]
    exact early

/-- The socket is connected by the event that would have it read. -/
def Connects (kernel : Kernel) (maxChunks fuel : Nat) (connection : Connection) (event : LoopEvent) : Prop :=
  connection.state = .progress ∧ event.writable = true ∧ event.soError = false ∧
    ∃ next, (connection.unblock.setState .online).apeSocketConnected kernel maxChunks fuel event.onConnected = .ok next ∧
      next.state = .online

/-- Where the socket is not read, it is only `ONLINE` afterwards if it was connected just now. -/
theorem writable_connects (tcp : connection.proto = .tcp) (closed : connection.state ≠ .online)
    (wrote : connection.unblock.writable kernel maxChunks fuel event = .ok new) (writes : event.writable = true) :
    new.state = .online ↔ Connects kernel maxChunks fuel connection event := by
  rw [Connection.writable, if_neg fun ready => closed ready.1] at wrote
  split at wrote
  · rename_i progress
    split at wrote
    · rename_i failed
      constructor
      · intro online
        exact absurd ((destroy_asks wrote).online tcp online) closed
      · rintro ⟨-, -, clear, -⟩
        cases failed.symm.trans clear
    · rename_i clear
      constructor
      · intro online
        exact ⟨progress, writes, Bool.not_eq_true _ |>.mp clear, new, wrote, online⟩
      · rintro ⟨-, -, -, next, connected, online⟩
        cases wrote.symm.trans connected
        exact online
  · rename_i other
    cases wrote
    constructor
    · intro online
      exact absurd online closed
    · rintro ⟨progress, -⟩
      exact absurd progress other

theorem dispatch_drained (tcp : connection.proto = .tcp) (readable : event.readable = true)
    (dispatched : connection.dispatch kernel maxChunks fuel event = .ok new) :
    (new.state = .online → drained connection new = true) ↔ ¬Connects kernel maxChunks fuel connection event := by
  obtain ⟨middle, ret, read, rest⟩ := dispatch_cases dispatched
  simp only [readable, tcp, if_true] at read
  let ready := if event.writable then connection.unblock else connection
  obtain ⟨log, state, -⟩ : ready.log = connection.log ∧ ready.state = connection.state ∧ _ := ready_same connection event
  have later : Unread middle new := by
    split at rest
    · exact writable_unread rest
    · rw [rest]
      exact unread_refl middle
  by_cases online : connection.state = .online
  · have asked : (ready.emit ((receive event.reads).replies.map .read)).log =
        connection.log ++ (receive event.reads).replies.map .read := by
      show ready.log ++ _ = _
      rw [log]
    have read_all : drained connection new = true := by
      rw [drained_unread asked ((read_drained (state.trans online) read).trans later), replies_read,
        (receive_last event.reads).1]
      exact (receive_last event.reads).2
    constructor
    · rintro - ⟨progress, -⟩
      cases online.symm.trans progress
    · exact fun _ _ => read_all
  · obtain ⟨same, ret_⟩ := read_closed (fun still => online (state.symm.trans still)) read
    have missed : drained connection new = false := by
      rw [same] at later
      rw [drained_unread (log.trans (List.append_nil _).symm) later]
      rfl
    rw [missed]
    by_cases writes : event.writable = true
    · rw [if_pos ⟨by rw [ret_]; decide, writes⟩, same] at rest
      simp only [ready, writes, if_true] at rest
      rw [← writable_connects tcp online rest writes]
      constructor
      · exact fun all still => Bool.false_ne_true (all still)
      · exact fun none still => absurd still none
    · rw [if_neg fun both => writes both.2, same] at rest
      constructor
      · rintro - ⟨-, writable, -⟩
        exact writes writable
      · intro _ still
        rw [rest, state] at still
        exact absurd still online

theorem connects_returns (tcp : connection.proto = .tcp) (readable : event.readable = true)
    (connects : Connects kernel maxChunks fuel connection event) :
    ∃ new, connection.dispatch kernel maxChunks fuel event = .ok new := by
  obtain ⟨progress, writes, clear, next, connected, -⟩ := connects
  have still : connection.unblock.state = .progress := progress
  have open_ : connection.unblock.state ≠ .online := by
    rw [still]
    decide
  have read : connection.unblock.apeSocketRead kernel maxChunks fuel event = .ok (connection.unblock, 0) := by
    rw [Connection.apeSocketRead, if_pos open_]
  have wrote : connection.unblock.writable kernel maxChunks fuel event = .ok next := by
    rw [Connection.writable, if_neg fun ready => open_ ready.1, if_pos still, clear]
    exact connected
  have stream : connection.unblock.proto = .tcp := tcp
  refine ⟨next, ?_⟩
  simp only [Connection.dispatch, writes, readable, if_true, stream, read]
  exact wrote

end Dispatching

def dispatches (connection : Connection) : Bool := !connection.freed && connection.client && connection.idle

/-- Where an event that says that the socket can be read leaves it `ONLINE`, it was read until there was nothing more. -/
def Drains (kernel : Kernel) (maxChunks fuel : Nat) (connection : Connection) (step : ConnectionStep) : Prop :=
  ∀ event new, step = .event event → event.readable = true → dispatches connection = true →
    connection.step kernel maxChunks fuel step = .ok new → new.state = .online → drained connection new = true

/-- No event that says that the socket can be read connects it as well. -/
def ConnectsApart (kernel : Kernel) (maxChunks fuel : Nat) (connection : Connection) (step : ConnectionStep) : Prop :=
  ∀ event, step = .event event → event.readable = true → dispatches connection = true →
    ¬Connects kernel maxChunks fuel connection event

theorem step_dispatches {kernel : Kernel} {maxChunks fuel : Nat} {connection : Connection}
    (dispatched : dispatches connection = true) (event : LoopEvent) :
    connection.step kernel maxChunks fuel (.event event) = connection.dispatch kernel maxChunks fuel event := by
  simp only [dispatches, Bool.and_eq_true, Bool.not_eq_true'] at dispatched
  obtain ⟨⟨unreleased, client⟩, idle⟩ := dispatched
  simp only [Connection.step, unreleased, client, idle, Bool.false_eq_true, Bool.true_eq_false, or_self, if_false]

theorem step_drains {kernel : Kernel} {maxChunks fuel : Nat} {connection : Connection} (tcp : connection.proto = .tcp)
    (step : ConnectionStep) :
    Drains kernel maxChunks fuel connection step ↔ ConnectsApart kernel maxChunks fuel connection step := by
  constructor
  · rintro drains event rfl readable dispatched connects
    obtain ⟨new, returned⟩ := connects_returns tcp readable connects
    have stepped := (step_dispatches dispatched event).trans returned
    refine (dispatch_drained tcp readable returned).mp ?_ connects
    exact drains event new rfl readable dispatched stepped
  · rintro apart event new rfl readable dispatched stepped
    rw [step_dispatches dispatched] at stepped
    exact (dispatch_drained tcp readable stepped).mpr (apart event rfl readable dispatched)

/-- Every event that can be read drains the stream, up to those that connect it. -/
theorem drains_iff (kernel : Kernel) (maxChunks fuel : Nat) (limit total : SizeT) (accepted : Bool)
    (callbacks : SocketCallbacks) (steps : List ConnectionStep) :
    EachStep (Connection.step kernel maxChunks fuel) (openedSocket limit total accepted callbacks) steps
        (Drains kernel maxChunks fuel) ↔
      EachStep (Connection.step kernel maxChunks fuel) (openedSocket limit total accepted callbacks) steps
        (ConnectsApart kernel maxChunks fuel) := by
  apply each_congr
  intro before step connection reached
  exact step_drains (run_grows reached).proto step

/-- Both bits of the event that connects the socket are set: it is `ONLINE` afterwards, and nothing was read. -/
theorem connected_unread : ¬EachStep (Connection.step generous 1 1) (openedSocket 0#64 0#64 false {})
    [.event { readable := true, writable := true, reads := [.bytes [0x41#8]] }] (Drains generous 1 1) := by
  intro drains
  have drains := drains [] _ [] _ rfl rfl _ _ rfl rfl rfl rfl rfl
  cases drains

end ZapeProof
