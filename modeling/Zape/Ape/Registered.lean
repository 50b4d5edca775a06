import Zape.Ape.Moves

/-! How many descriptors are registered with the poller, and how many `ape->events.nfd` counts. -/
namespace ZapeProof

open Machine ZapeModel

/-- What a step asks of the poller: to watch a descriptor, and the answer; to watch one no more, which is closed with that;
    or nothing, for one that is closed all the same. -/
inductive PollChange
  | add (fd : Int) (accepted : Bool)
  | del (fd : Int)
  | lost (fd : Int)
  deriving DecidableEq

/-- The address was found, and `connect` is under way. -/
def dialChange (ape : Ape) (i : Nat) (port : NetSocket → BitVec 16) (dialing : Option Dialing) : Option PollChange :=
  match ape.sockets[i]?, dialing with
  | some socket, some dialing =>
    if dialing.dial (port socket) = .started then some (.add socket.fd dialing.accepted) else none
  | _, _ => none

def aresChange (run : AresRun) (call : AresCall) : Option PollChange :=
  if call.s ≤ 0 then none
  else if call.read = false ∧ call.write = false then
    if run.isOpen call.s then
      match findAres call.s 0 0 run.sockets.list with
      | .here _ => some (.del call.s)
      | .nowhere _ => some (.add call.s call.accepted)
    else none
  else
    match findAres call.s 0 0 run.sockets.list with
    | .here _ => none
    | .nowhere _ => some (.add call.s call.accepted)

def pollChange (ape : Ape) : ApeCall → Option PollChange
  | .listen i port bound listening accepted =>
    match ape.sockets[i]? with
    | none => none
    | some socket =>
      if port = 0#16 then none
      else if bound = false ∨ (socket.proto = .tcp ∨ socket.proto = .ssl) ∧ listening = false then some (.lost socket.fd)
      else some (.add socket.fd accepted)
  | .connect i port localport numeric dialing =>
    if port ≠ 0#16 ∧ (numeric = true ∨ (ape.sockets[i]?.any (·.proto = .unix)) = true) then
      dialChange ape i (fun _ => localport) (some dialing)
    else none
  | .resolved q dialing =>
    match ape.queries[q]? with
    | none => none
    | some params => if params.invalidate then none else dialChange ape params.arg (·.localPort) dialing
  | .ares call => aresChange ape.ares call
  | .resume =>
    match ape.frames with
    | .close i _ :: _ => ape.sockets[i]?.map (.del ·.fd)
    | .accept _ (.descriptor fd opened nonblocking accepted :: _) :: _ =>
      (Ape.apeSocketNew .tcp fd opened nonblocking).map fun new => .add new.fd accepted
    | _ => none
  | _ => none

def watchedFds (ev : Fdevent) : List Int := ev.interests.map (·.fd)

/-- The count and the descriptors after a change. -/
def Tallies (old new : Fdevent) : Option PollChange → Prop
  | none => new.nfd = old.nfd ∧ watchedFds new = watchedFds old
  | some (.add fd accepted) =>
    new.nfd = old.nfd + 1 ∧
      watchedFds new = if accepted = false ∨ fd ∈ watchedFds old then watchedFds old else watchedFds old ++ [fd]
  | some (.del fd) => new.nfd = old.nfd - 1 ∧ watchedFds new = (watchedFds old).filter (· ≠ fd)
  | some (.lost fd) => new.nfd = old.nfd ∧ watchedFds new = (watchedFds old).filter (· ≠ fd)

section Poller

variable {ev : Fdevent} {fd : Int} {evd : EventDescriptor} {bitadd : BitVec 32} {accepted : Bool}

theorem watches_mem : ev.watches fd = true ↔ fd ∈ watchedFds ev := by
  rw [Fdevent.watches, watchedFds, List.any_eq_true, List.mem_map]
  simp only [decide_eq_true_iff]

theorem add_tallies : Tallies ev (ev.eventsAdd fd evd bitadd accepted).1 (some (.add fd accepted)) := by
  constructor
  · rw [Fdevent.eventsAdd, Fdevent.eventEpollAdd]
    dsimp only
    split
    · split <;> rfl
    · split <;> rfl
  · rw [watchedFds, eventsAdd_interests]
    simp only [watches_mem]
    split
    · rfl
    · rw [List.map_append]
      rfl

theorem add_result :
    (ev.eventsAdd fd evd bitadd accepted).2 = if accepted = false ∨ fd ∈ watchedFds ev then -1 else 1 := by
  have same : ∀ grown : Fdevent, grown.interests = ev.interests → grown.watches fd = ev.watches fd := by
    intro grown interests
    rw [Fdevent.watches, Fdevent.watches, interests]
  rw [Fdevent.eventsAdd, Fdevent.eventEpollAdd]
  dsimp only
  rw [same]
  · simp only [watches_mem]
    split <;> rfl
  · split <;> rfl

theorem close_fds : watchedFds (ev.close fd) = (watchedFds ev).filter (· ≠ fd) := by
  rw [watchedFds, Fdevent.close, watchedFds, List.filter_map]
  rfl

theorem mod_tallies : Tallies ev (ev.eventsMod fd evd bitadd accepted).1 none := by
  rw [Fdevent.eventsMod, Fdevent.eventEpollMod]
  split
  · exact ⟨rfl, rfl⟩
  · refine ⟨rfl, ?_⟩
    rw [watchedFds, List.map_map]
    apply List.map_congr_left
    intro interest _
    by_cases here : interest.fd = fd <;> simp [here]

theorem ares_tallies {run next : AresRun} {call : AresCall} (stepped : run.step call = .ok next) :
    Tallies run.sockets.events next.sockets.events (aresChange run call) := by
  rw [AresRun.step] at stepped
  rw [aresChange]
  by_cases negative : call.s ≤ 0
  · rw [if_pos negative] at stepped ⊢
    cases stepped
    exact ⟨rfl, rfl⟩
  · rw [if_neg negative] at stepped ⊢
    by_cases closes : call.read = false ∧ call.write = false
    · rw [if_pos closes] at stepped ⊢
      have unasked : listenfor call.read call.write = 0#32 := by rw [closes.1, closes.2]; rfl
      by_cases opened : run.isOpen call.s = true
      · rw [if_pos opened] at stepped ⊢
        cases stepped
        cases scan : findAres call.s 0 0 run.sockets.list with
        | here k =>
          simp only [aresSocketCb, scan, unasked, if_true]
          exact ⟨rfl, close_fds⟩
        | nowhere f =>
          simp only [aresSocketCb, scan]
          exact add_tallies
      · rw [if_neg opened] at stepped ⊢
        cases stepped
        exact ⟨rfl, rfl⟩
    · rw [if_neg closes] at stepped ⊢
      cases stepped
      have asked : listenfor call.read call.write ≠ 0#32 := by
        cases read : call.read with
        | true => simp [listenfor, eventRead]
        | false =>
          cases write : call.write with
          | true => simp [listenfor, eventWrite]
          | false => exact absurd ⟨read, write⟩ closes
      cases scan : findAres call.s 0 0 run.sockets.list with
      | here k =>
        simp only [aresSocketCb, scan]
        rw [if_neg asked]
        exact mod_tallies
      | nowhere f =>
        simp only [aresSocketCb, scan]
        exact add_tallies

end Poller

section Steps

variable {ape next : Ape} {i : Nat}

theorem close_polls {now : Bool} (done : ape.apeSocketClose i now = .ok next) : next.events = ape.events := by
  obtain ⟨socket, -, -, ⟨-, rfl⟩ | ⟨-, rfl⟩⟩ := close_cases done
  · rfl
  · rfl

theorem shutdown_polls {waits : Bool} (done : ape.apeSocketShutdown i waits = .ok next) : next.events = ape.events := by
  obtain ⟨socket, -, -, rfl | ⟨-, closed⟩ | ⟨-, -, closed⟩ | ⟨-, -, rfl⟩⟩ := shutdown_cases done
  · rfl
  · exact close_polls closed
  · exact (close_polls closed).trans rfl
  · rfl

theorem ready_tallies {dialing : Option Dialing} {port : NetSocket → BitVec 16} {before : Ape}
    (done : ape.readyToConnect i dialing = .ok next) (events : before.events = ape.events)
    (same : ∀ socket, ape.sockets[i]? = some socket →
      ∃ old, before.sockets[i]? = some old ∧ old.fd = socket.fd ∧ port old = socket.localPort) :
    Tallies before.events next.events (dialChange before i port dialing) := by
  obtain ⟨socket, here, -, outcome⟩ := ready_cases done
  rcases outcome with ⟨refused, closed⟩ | ⟨⟨dialing, rfl, unbound⟩, rfl⟩ | ⟨dialing, rfl, started, rfl⟩
  · obtain ⟨old, found, -, ports⟩ := same socket here
    have nothing : dialChange before i port dialing = none := by
      cases dialing with
      | none => simp [dialChange]
      | some dialing =>
        have outcome : dialing.dial (port old) = .refused := by
          rw [ports]
          simpa using refused
        simp [dialChange, found, outcome]
    rw [nothing, events, close_polls closed]
    exact ⟨rfl, rfl⟩
  · obtain ⟨old, found, -, ports⟩ := same socket here
    have nothing : dialChange before i port (some dialing) = none := by
      simp [dialChange, found, ports, unbound]
    rw [nothing, events]
    exact ⟨rfl, rfl⟩
  · obtain ⟨old, found, fds, ports⟩ := same socket here
    have added : dialChange before i port (some dialing) = some (.add socket.fd dialing.accepted) := by
      simp [dialChange, found, ports, started, fds]
    rw [added, events]
    have left : (startedApe (dialingApe ape i socket.state) i socket dialing.accepted).events =
        (ape.events.eventsAdd socket.fd (.socket i) (eventRead ||| eventWrite) dialing.accepted).1 := by
      rw [startedApe]
      split <;> rfl
    rw [left]
    exact add_tallies

/-- A socket that is to be connected has the descriptor that it had, and the local port that it was given. -/
theorem ported_same {port localport : BitVec 16} {old : NetSocket} (here : ape.sockets[i]? = some old) :
    ∀ changed : NetSocket, (portedApe ape i port localport).sockets[i]? = some changed →
      ∃ old, ape.sockets[i]? = some old ∧ old.fd = changed.fd ∧ localport = changed.localPort := by
  intro changed there
  rw [portedApe, Ape.change, List.getElem?_modify_eq, here] at there
  cases there
  exact ⟨old, here, rfl, rfl⟩

theorem new_tallies {proto : SocketProto} {fd : Int} {opened : Option Int} {nonblocking accepted : Bool} {new : NetSocket}
    (opens : Ape.apeSocketNew proto fd opened nonblocking = some new) :
    (Ape.apeSocketNew .tcp fd opened nonblocking).map (fun new => PollChange.add new.fd accepted) =
      some (.add new.fd accepted) := by
  obtain ⟨isNonblocking, sock, given, rfl⟩ := new_some opens
  rw [Ape.apeSocketNew, if_pos isNonblocking, given]
  rfl

theorem step_tallies {call : ApeCall} (done : ape.step call = .ok next) :
    Tallies ape.events next.events (pollChange ape call) := by
  have still : ∀ {after : Ape}, after.events = ape.events → Tallies ape.events after.events none := by
    intro after same
    rw [same]
    exact ⟨rfl, rfl⟩
  cases ape_step_cases done with
  | new => exact still rfl
  | setCallbacks here => exact still rfl
  | listenNowhere here unasked =>
    simp only [pollChange, unasked, if_true]
    split <;> exact still rfl
  | listenFails here asked fails =>
    simp only [pollChange, here, asked, fails, if_true, if_false]
    exact ⟨rfl, close_fds⟩
  | listens here asked succeeds =>
    simp only [pollChange, here, asked, succeeds, if_false]
    exact add_tallies
  | connectNowhere unasked closed =>
    simp only [pollChange, unasked, ne_eq, not_true_eq_false, false_and, if_false]
    exact still (close_polls closed)
  | connectUnix here asked unix dialed =>
    rw [pollChange, if_pos ⟨asked, .inr (by simp [here, unix])⟩]
    exact ready_tallies dialed rfl (ported_same here)
  | connectAddress here asked address dialed =>
    rw [pollChange, if_pos ⟨asked, .inl address⟩]
    exact ready_tallies dialed rfl (ported_same here)
  | connectName here asked stream name =>
    rw [pollChange, if_neg (by simp [here, stream, name])]
    exact still rfl
  | shutdown shut => exact still (shutdown_polls shut)
  | shutdownNow shut => exact still (shutdown_polls shut)
  | abandoned query undone invalid =>
    simp only [pollChange, query, invalid, if_true]
    exact still rfl
  | resolved query undone valid dialed =>
    simp only [pollChange, query, valid]
    exact ready_tallies dialed rfl fun socket there => ⟨socket, there, rfl, rfl⟩
  | ares stepped => exact ares_tallies stepped
  | established idle here progress => exact still (by rw [calledApe]; split <;> rfl)
  | unestablished idle closed => exact still (close_polls closed)
  | ended idle closed => exact still (close_polls closed)
  | acceptable idle => exact still rfl
  | socketFree idle due here => exact still rfl
  | socketDestroy idle due closed => exact still ((close_polls closed).trans rfl)
  | socketConnected idle due here => exact still (by rw [calledApe]; split <;> rfl)
  | paramsFree idle due => exact still rfl
  | returned frames =>
    simp only [pollChange, frames]
    exact still rfl
  | @closes i now rest socket frames here =>
    simp only [pollChange, frames, here, Option.map_some]
    cases now <;> exact ⟨rfl, close_fds⟩
  | answered frames =>
    simp only [pollChange, frames]
    exact still rfl
  | asked frames record =>
    simp only [pollChange, frames]
    exact still rfl
  | connected frames =>
    simp only [pollChange, frames]
    exact still rfl
  | drained frames =>
    simp only [pollChange, frames]
    exact still rfl
  | interrupted frames =>
    simp only [pollChange, frames]
    exact still rfl
  | aborted frames =>
    simp only [pollChange, frames]
    exact still rfl
  | @accepted i fd opened nonblocking accepted results rest socket new frames here opens =>
    simp only [pollChange, frames, new_tallies opens]
    rw [acceptedApe]
    split <;> exact add_tallies

end Steps

/-- The poller accepts what it is asked to watch, and did not watch it yet; it watches what it is asked to watch no more; and
    what is closed all the same is not watched. -/
def registersWell (ape : Ape) (call : ApeCall) : Bool :=
  match ape.step call, pollChange ape call with
  | .error _, _ => true
  | .ok _, none => true
  | .ok _, some (.add fd accepted) => accepted && decide (fd ∉ watchedFds ape.events)
  | .ok _, some (.del fd) => decide (fd ∈ watchedFds ape.events)
  | .ok _, some (.lost fd) => decide (fd ∉ watchedFds ape.events)

/-- The counter is the number of registered descriptors. -/
def CountsRegistered (ape : Ape) : Prop := ape.events.nfd = ape.events.interests.length ∧ 0 ≤ ape.events.nfd

/-- With that, no descriptor is registered twice. -/
def PollTallied (ape : Ape) : Prop := ape.events.nfd = (watchedFds ape.events).length ∧ (watchedFds ape.events).Nodup

section Counting

variable {ape next : Ape} {call : ApeCall}

theorem counts_iff : CountsRegistered ape ↔ ape.events.nfd = (watchedFds ape.events).length := by
  rw [CountsRegistered, watchedFds, List.length_map]
  constructor
  · exact fun counts => counts.1
  · exact fun counts => ⟨counts, by omega⟩

/-- A list without repetitions loses one element, or none. -/
theorem length_without {fds : List Int} (nodup : fds.Nodup) (fd : Int) :
    (fds.filter (· ≠ fd)).length = fds.length - if fd ∈ fds then 1 else 0 := by
  have same : fds.filter (· ≠ fd) = fds.erase fd := by
    rw [nodup.erase_eq_filter]
    apply List.filter_congr
    intro other _
    by_cases equal : other = fd <;> simp [equal]
  rw [same, List.length_erase]
  split <;> rfl

theorem tally_keeps (tallied : PollTallied ape) (done : ape.step call = .ok next) :
    (registersWell ape call = true ↔ next.events.nfd = (watchedFds next.events).length) ∧
      (registersWell ape call = true → (watchedFds next.events).Nodup) := by
  obtain ⟨counts, nodup⟩ := tallied
  have tallies := step_tallies done
  rw [registersWell, done]
  cases change : pollChange ape call with
  | none =>
    rw [change] at tallies
    simp only [tallies.1, tallies.2, counts, nodup, implies_true, and_self]
  | some change' =>
    rw [change] at tallies
    cases change' with
    | add fd accepted =>
      obtain ⟨nfd, fds⟩ := tallies
      simp only [Bool.and_eq_true, decide_eq_true_iff]
      by_cases added : accepted = true ∧ fd ∉ watchedFds ape.events
      · rw [if_neg (by simp [added.1, added.2])] at fds
        rw [nfd, fds, counts, List.length_append, List.length_singleton]
        refine ⟨iff_of_true added (by omega), fun _ => ?_⟩
        apply nodup.append (List.nodup_singleton fd)
        intro other member same
        rw [List.mem_singleton.mp same] at member
        exact added.2 member
      · have refused : accepted = false ∨ fd ∈ watchedFds ape.events := by
          rw [not_and, not_not] at added
          cases accepted with
          | false => exact .inl rfl
          | true => exact .inr (added rfl)
        rw [if_pos refused] at fds
        rw [nfd, fds, counts]
        exact ⟨iff_of_false added (by omega), fun well => absurd well added⟩
    | del fd =>
      obtain ⟨nfd, fds⟩ := tallies
      simp only [decide_eq_true_iff]
      have lengths := length_without nodup fd
      rw [nfd, fds, counts, lengths]
      by_cases watched : fd ∈ watchedFds ape.events
      · have some_fd := List.length_pos_of_mem watched
        rw [if_pos watched]
        exact ⟨iff_of_true watched (by omega), fun _ => nodup.filter _⟩
      · rw [if_neg watched]
        exact ⟨iff_of_false watched (by omega), fun well => absurd well watched⟩
    | lost fd =>
      obtain ⟨nfd, fds⟩ := tallies
      simp only [decide_eq_true_iff]
      have lengths := length_without nodup fd
      rw [nfd, fds, counts, lengths]
      by_cases watched : fd ∈ watchedFds ape.events
      · have some_fd := List.length_pos_of_mem watched
        rw [if_pos watched]
        exact ⟨iff_of_false (by simp [watched]) (by omega), fun well => absurd watched well⟩
      · rw [if_neg watched]
        exact ⟨iff_of_true watched (by omega), fun _ => nodup.filter _⟩

/-- The counter is right in all states of a run exactly if the poller and the code agree in each of its steps. -/
theorem nfd_counts_iff (calls : List ApeCall) :
    Throughout Ape.step {} calls CountsRegistered ↔
      EachStep Ape.step {} calls fun ape call => registersWell ape call = true := by
  apply @throughout_iff _ _ _ _ _ _ PollTallied
  · exact ⟨rfl, List.nodup_nil⟩
  · exact fun ape kept => counts_iff.mpr kept.1
  · intro ape call next kept well done
    have keeps := tally_keeps kept done
    exact ⟨keeps.1.mp well, keeps.2 well⟩
  · intro ape call kept ill
    cases done : ape.step call with
    | error fault =>
      rw [registersWell, done] at ill
      exact absurd rfl ill
    | ok next =>
      refine ⟨next, rfl, fun counts => ill ?_⟩
      exact (tally_keeps kept done).1.mpr (counts_iff.mp counts)

/-- A socket that was never registered is shut down. -/
def neverRegistered : List ApeCall := [.new .tcp 0 (some 5) true, .shutdownNow 0, .resume]

theorem nfd_negative :
    ∃ ape, runAll Ape.step {} neverRegistered = .ok ape ∧ ape.events.nfd = -1 ∧ ¬ CountsRegistered ape := by
  refine ⟨_, rfl, rfl, ?_⟩
  rintro ⟨-, positive⟩
  exact absurd positive (by decide)

/-- A socket that listens, and is shut down. -/
def listening : List ApeCall := [.new .tcp 0 (some 5) true, .listen 0 80#16 true true true, .shutdownNow 0, .resume]

theorem listening_counts : Throughout Ape.step {} listening CountsRegistered :=
  (nfd_counts_iff listening).mpr (each_of_check rfl)

end Counting

end ZapeProof
