import Zape.Ape.Releasing

/-! A socket that `APE_socket_shutdown_now` took out of the `ONLINE` state, and the callbacks that get data. -/
namespace ZapeProof

open Machine ZapeModel

/-- The callbacks that get data, or ask for some. -/
def hears : ConnectionEvent → Bool
  | .onRead _ | .onMessage _ | .onDrain => true
  | _ => false

def datagram : ConnectionEvent → Bool
  | .read (.bytes (_ :: _)) => true
  | _ => false

def Silent (log : List ConnectionEvent) : Prop := log.Pairwise fun first later => first = .leave → hears later = false

/-- Once the socket left it is not connected again, and no datagram is received for `on_message`. -/
def Heeded (connection : Connection) : Prop :=
  connection.log.Pairwise fun first later => first = .leave →
    connects later = false ∧ (connection.proto = .udp → connection.callbacks.onMessage = true → datagram later = false)

/-- The callbacks are silent so far, and a socket that left cannot call them. -/
structure Hushed (connection : Connection) : Prop where
  silent : Silent connection.log
  left : gone connection.log = true → closed connection.state = true

section Logs

variable {old new connection : Connection} {log events : List ConnectionEvent}

theorem Grows.heeded (grows : Grows old new) (heeded : Heeded new) : Heeded old := by
  obtain ⟨events, log⟩ := grows.log
  rw [Heeded, grows.proto, grows.callbacks, log] at heeded
  exact (List.pairwise_append.mp heeded).1

theorem silent_append (silent : Silent log) (none : ∀ event ∈ events, hears event = false) : Silent (log ++ events) := by
  apply List.pairwise_append.mpr
  refine ⟨silent, ?_, ?_⟩
  · apply List.pairwise_of_forall_mem_list
    intro first _ later member _
    exact none later member
  · intro first _ later member _
    exact none later member

theorem silent_before (silent : Silent log) (stays : .leave ∉ log) (event : ConnectionEvent) : Silent (log ++ [event]) := by
  apply List.pairwise_append.mpr
  refine ⟨silent, List.pairwise_singleton _ _, ?_⟩
  rintro first member later - rfl
  exact absurd member stays

theorem gone_left (heeded : Heeded connection) (left : .leave ∈ connection.log) : gone connection.log = true := by
  have unconnected : connection.log.Pairwise fun first later => first = .leave → connects later = false := by
    apply List.Pairwise.imp ?_ heeded
    intro first later heeds leaves
    exact (heeds leaves).1
  generalize connection.log = log at unconnected left
  induction log using List.reverseRecOn with
  | nil => cases left
  | append_singleton log event ih =>
    obtain ⟨before, -, across⟩ := List.pairwise_append.mp unconnected
    rw [gone, List.foldl_append]
    rcases List.mem_append.mp left with early | last
    · have still := ih before early
      have apart := across .leave early event (List.mem_singleton_self _) rfl
      cases event with
      | connect state lookups => cases apart
      | leave => rfl
      | _ => exact still
    · rw [← List.mem_singleton.mp last]
      rfl

theorem Hushed.open_ (hushed : Hushed connection) (heeded : Heeded connection) (online : closed connection.state = false) :
    .leave ∉ connection.log := by
  intro left
  have shut := hushed.left (gone_left heeded left)
  cases online.symm.trans shut

theorem Asks.hushed (asked : Asks old new) (hushed : Hushed old) : Hushed new where
  silent := by
    obtain ⟨events, log, all⟩ := asked.log
    rw [log]
    apply silent_append hushed.silent
    intro event member
    have this := all event member
    cases event with
    | onRead data => cases this
    | onMessage data => cases this
    | onDrain => cases this
    | _ => rfl
  left := asked.gone hushed.left

theorem hushed_emit (hushed : Hushed connection) (none : ∀ event ∈ events, hears event = false ∧ event ≠ .leave) :
    Hushed (connection.emit events) where
  silent := silent_append hushed.silent fun event member => (none event member).1
  left := by
    intro left
    apply hushed.left
    exact gone_append connection.log events (fun member => (none .leave member).2 rfl) left

theorem hushed_single (hushed : Hushed connection) {event : ConnectionEvent} (none : hears event = false)
    (plain : event ≠ .leave) : Hushed (connection.emit [event]) := by
  apply hushed_emit hushed
  intro told member
  rw [List.mem_singleton.mp member]
  exact ⟨none, plain⟩

theorem hushed_same (hushed : Hushed old) (log : new.log = old.log) (state : new.state = old.state) : Hushed new := by
  refine ⟨?_, ?_⟩
  · rw [log]
    exact hushed.silent
  · rw [log, state]
    exact hushed.left

end Logs

section Events

variable {kernel : Kernel} {maxChunks fuel : Nat} {connection new : Connection} {event : LoopEvent} {ret : Int}

theorem callback_hushed (hushed : Hushed connection) {set : Bool} {told : ConnectionEvent} {calls : List ConnectionCall}
    (returned : connection.callback kernel maxChunks fuel set told calls = .ok new) (plain : told ≠ .leave)
    (stays : set = true → hears told = true → .leave ∉ connection.log) : Hushed new := by
  rcases callback_cases returned with ⟨is_set, asked⟩ | rfl
  · apply asked.hushed
    cases hears_ : hears told with
    | false => exact hushed_single hushed hears_ plain
    | true =>
      refine ⟨silent_before hushed.silent (stays is_set hears_) told, fun left => ?_⟩
      apply hushed.left
      exact gone_append connection.log [told] (fun member => plain (List.mem_singleton.mp member).symm) left
  · exact hushed

theorem read_hushed (hushed : Hushed connection)
    (read : connection.apeSocketRead kernel maxChunks fuel event = .ok (new, ret)) (heeded : Heeded new) : Hushed new := by
  by_cases online : connection.state = .online
  · have stays := hushed.open_ ((read_grows read).heeded heeded) (by rw [online]; rfl)
    obtain ⟨middle, called, rest⟩ := read_cases online read
    have asked : Hushed (connection.emit ((receive event.reads).replies.map .read)) := by
      apply hushed_emit hushed
      intro event member
      obtain ⟨reply, -, rfl⟩ := List.mem_map.mp member
      exact ⟨rfl, by simp⟩
    have early : Hushed middle := by
      split at called
      · refine callback_hushed asked called (by simp) fun _ _ member => ?_
        rcases List.mem_append.mp member with before | new
        · exact stays before
        · obtain ⟨reply, -, impossible⟩ := List.mem_map.mp new
          cases impossible
      · cases called
        exact asked
    split at rest
    · exact (destroy_asks rest.1).hushed early
    · rw [rest.1]
      exact early
  · rw [(read_closed online read).1]
    exact hushed

/-- The datagrams are received one by one, whatever `on_message` called for the one before. -/
theorem readUdp_hushed (udp : connection.proto = .udp) (hushed : Hushed connection)
    {datagrams : List (ReadReply × List ConnectionCall)}
    (read : connection.apeSocketReadUdp kernel maxChunks fuel datagrams = .ok new) (heeded : Heeded new) : Hushed new := by
  have answers : ∀ {connection : Connection} (reply : ReadReply), Hushed connection →
      Hushed (connection.emit [.read reply]) := fun reply hushed => hushed_single hushed rfl (by simp)
  refine readUdp_induction (motive := fun connection new => connection.proto = .udp → Hushed connection → Heeded new →
    Hushed new) ?_ ?_ read udp hushed heeded
  · intro connection reply _ hushed _
    exact answers reply hushed
  · intro connection middle new byte bytes calls rest called later ih udp hushed heeded
    have told := callback_grows called
    have received := (told.trans (readUdp_grows later)).heeded heeded
    have early : Hushed middle := by
      refine callback_hushed (answers _ hushed) called (by simp) fun set _ member => ?_
      rcases List.mem_append.mp member with before | new
      · have heeds := (List.pairwise_append.mp received).2.2 .leave before _ (List.mem_singleton_self _) rfl
        cases heeds.2 udp set
      · cases List.mem_singleton.mp new
    exact ih (told.proto.trans udp) early heeded

theorem doJobs_hushed (online : connection.state = .online) (hushed : Hushed connection) {onDrain : List ConnectionCall}
    (done : connection.doJobs kernel maxChunks fuel onDrain = .ok new) (heeded : Heeded new) : Hushed new := by
  obtain ⟨world, njobsdone, now, ran, rest⟩ := doJobs_cases done
  have flushed := doJobs_flushed online ran
  have followed := (asks_follow connection now flushed.state).hushed hushed
  split at rest
  · rename_i one
    have still : (connection.follow now world).state = .online := by
      rw [follow_state, flushed.stays (by rw [one]; decide)]
      exact online
    have past := (callback_grows rest).heeded heeded
    exact callback_hushed followed rest (by simp) fun _ _ => followed.open_ past (by rw [still]; rfl)
  · cases rest
    exact followed

theorem writable_hushed (hushed : Hushed connection) (wrote : connection.writable kernel maxChunks fuel event = .ok new)
    (heeded : Heeded new) : Hushed new := by
  rw [Connection.writable] at wrote
  split at wrote
  · rename_i ready
    exact doJobs_hushed ready.1 hushed wrote heeded
  · split at wrote
    · rename_i progress
      split at wrote
      · exact (destroy_asks wrote).hushed hushed
      · have connected : Hushed (connection.setState .online) := by
          refine ⟨hushed.silent, fun left => ?_⟩
          have shut := hushed.left left
          rw [progress] at shut
          cases shut
        exact callback_hushed connected wrote (by simp) (by simp [hears])
    · cases wrote
      exact hushed

theorem dispatch_hushed (hushed : Hushed connection) (dispatched : connection.dispatch kernel maxChunks fuel event = .ok new)
    (heeded : Heeded new) : Hushed new := by
  obtain ⟨middle, ret, read, rest⟩ := dispatch_cases dispatched
  have past := (write_rest rest).heeded heeded
  obtain ⟨log, state, proto, -⟩ := ready_same connection event
  have starts := hushed_same hushed log state
  have early : Hushed middle := by
    split at read
    · split at read
      · exact read_hushed starts read past
      · rename_i udp
        obtain ⟨next, received, same⟩ := returned_map read
        cases same
        exact readUdp_hushed (proto.trans udp) starts received past
    · cases read
      exact starts
  split at rest
  · exact writable_hushed early rest heeded
  · rw [rest]
    exact early

theorem runTimer_hushed (hushed : Hushed connection) {timer : SocketTimer} {calls : List ConnectionCall}
    (ran : connection.runTimer kernel maxChunks fuel timer calls = .ok new) : Hushed new := by
  unfold Connection.runTimer at ran
  split at ran
  · cases ran
    exact hushed_single hushed rfl (by simp)
  · split at ran
    · exact callback_hushed hushed ran (by simp) (by simp [hears])
    · rw [Connection.destroyNow] at ran
      split at ran
      · cases ran
        exact hushed
      · obtain ⟨last, closing, rfl⟩ := returned_map ran
        have shut := (asks_closing (fun middle new => performAll_asks middle new calls) closing).hushed hushed
        have freed : Hushed (last.emit [.free]) := hushed_single shut rfl (by simp)
        exact hushed_same freed rfl rfl
    · cases ran
      have freed : Hushed (connection.emit [.free]) := hushed_single hushed rfl (by simp)
      exact hushed_same freed rfl rfl
    · obtain ⟨middle, performed, rfl⟩ := returned_map ran
      exact hushed_same ((perform_asks connection middle _ performed).hushed hushed) rfl rfl

end Events

section Runs

variable {kernel : Kernel} {maxChunks fuel : Nat} {start connection new : Connection}

theorem step_hushed (hushed : Hushed connection) {step : ConnectionStep}
    (stepped : connection.step kernel maxChunks fuel step = .ok new) (heeded : Heeded new) : Hushed new := by
  have counts : Hushed { connection with lookups := connection.lookups - 1 } := hushed_same hushed rfl rfl
  have asked : Hushed (answered connection) := hushed_single counts rfl (by simp)
  cases step_cases stepped with
  | stays => exact hushed
  | called unreleased performed => exact (perform_asks connection new _ performed).hushed hushed
  | dispatched unreleased ran => exact dispatch_hushed hushed ran heeded
  | late waits released => exact hushed_single asked rfl (by simp)
  | resolved waits ready =>
    have calls := fun middle new => @performAll_asks kernel maxChunks fuel middle new
    exact (asks_readyToConnect (fun middle new => calls middle new _) (gone_connect _ _ _) ready).hushed asked
  | started idle => exact hushed_same hushed rfl rfl
  | skipped found delays => exact hushed_same hushed rfl rfl
  | ran found returned => exact hushed_same (runTimer_hushed hushed returned) rfl rfl

theorem run_hushed (hushed : Hushed start) {steps : List ConnectionStep}
    (reached : runAll (Connection.step kernel maxChunks fuel) start steps = .ok connection) (heeded : Heeded connection) :
    Hushed connection := by
  apply runAll_within hushed ?_ ?_ reached heeded
  · exact fun state step next before stepped => step_hushed before stepped
  · exact fun state step next stepped => (step_grows stepped).heeded

end Runs

/-- Once `APE_socket_shutdown_now` took the socket out of the `ONLINE` state no data is delivered, whatever had already
    arrived, unless a datagram is received for `on_message`. -/
theorem silent_after_leave (kernel : Kernel) (maxChunks fuel : Nat) (start : Connection) (steps : List ConnectionStep)
    {connection : Connection} (fresh : start.log = [])
    (reached : runAll (Connection.step kernel maxChunks fuel) start steps = .ok connection) (heeded : Heeded connection) :
    Silent connection.log := by
  have hushed : Hushed start := by
    refine ⟨?_, fun left => ?_⟩
    · rw [fresh]
      exact List.Pairwise.nil
    · rw [fresh] at left
      cases left
  exact (run_hushed hushed reached heeded).silent

/-- Bytes are waiting and the socket can be written to, but `on_read` calls `APE_socket_shutdown_now`. -/
def leavesReading : List ConnectionStep :=
  [.event { readable := true, writable := true, reads := [.bytes [0x41#8]], onRead := [.shutdownNow []] },
    .event { readable := true, reads := [.bytes [0x42#8]] }]

def leftLog : List ConnectionEvent :=
  [.read (.bytes [0x41#8]), .read .again, .onRead [0x41#8], .leave, .created .destroy []]

theorem silent_after_read : logOf (openedSocket 0#64 0#64 true {}) leavesReading = .ok leftLog ∧ Silent leftLog := by
  have logged : logOf (openedSocket 0#64 0#64 true {}) leavesReading = .ok leftLog := by rfl
  refine ⟨logged, ?_⟩
  obtain ⟨connection, reached, same⟩ := returned_map logged
  rw [← same]
  apply silent_after_leave generous 1 1 _ leavesReading rfl reached
  have grows := run_grows reached
  rw [Heeded, grows.proto, grows.callbacks, same]
  decide

/-- Two datagrams wait in the kernel, and `on_message` calls `APE_socket_shutdown_now` for the first. -/
def leavesReceiving : List ConnectionStep :=
  [.call (.connect 53#16 (.answered (some .started)) []),
    .event { readable := true, datagrams := [(.bytes [0x41#8], [.shutdownNow []]), (.bytes [0x42#8], [])] }]

/-- The second is still delivered. -/
theorem message_after_leave : ∃ connection,
    runAll (Connection.step generous 1 1) (newSocket 0#64 0#64 .udp {}) leavesReceiving = .ok connection ∧
      ¬Silent connection.log := by
  have ran : logOf (newSocket 0#64 0#64 .udp {}) leavesReceiving =
      .ok [.connect .pending 0, .created .connected [], .read (.bytes [0x41#8]), .onMessage [0x41#8], .leave,
        .created .destroy [{ timer := .connected }], .read (.bytes [0x42#8]), .onMessage [0x42#8], .read .again] := by rfl
  obtain ⟨connection, reached, log⟩ := returned_map ran
  refine ⟨connection, reached, ?_⟩
  rw [log]
  unfold Silent
  decide

end ZapeProof
