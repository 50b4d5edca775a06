import Zape.Ape.Aside
import Zape.Ape.Registered

/-! One dispatch of a listening socket: what `accept` returned, and the clients that come of it. -/
namespace ZapeProof

open Machine ZapeModel

/-- The descriptors that `accept` returned for a server, with their clients. -/
def acceptedBy (i : Nat) (events : List ApeEvent) : List (Int × Nat) :=
  events.filterMap fun
    | .accepted j fd client => if j = i then some (fd, client) else none
    | _ => none

def descriptorsOf (results : List AcceptResult) : List Int :=
  results.filterMap fun
    | .descriptor fd _ _ _ => some fd
    | _ => none

/-- The client for a descriptor, with the callbacks of its server. -/
def clientOf (i : Nat) (server : NetSocket) (fd : Int) : NetSocket where
  fd := fd
  proto := server.proto
  type := .client
  state := .online
  callbacks := server.callbacks
  parent := some i

/-- What the dispatch logged so far. -/
def since (base ape : Ape) : List ApeEvent := ape.log.drop base.log.length

/-- The client is online, with the callbacks of its server, was registered, and was announced once if the server has a
    function for that. -/
structure ClientFine (ape : Ape) (events : List ApeEvent) (i : Nat) (server : NetSocket) (fd : Int) (client : Nat) :
    Prop where
  socket : ape.sockets[client]? = some (clientOf i server fd)
  registered : .registered client true ∈ events
  announced : events.count (.onConnect i client) = if server.callbacks.onConnect.isSome then 1 else 0

/-- Each descriptor has a client of its own, and `ape_socket_accept` does not return before `EAGAIN`, when it has taken all
    descriptors. -/
structure AcceptFine (base : Ape) (i : Nat) (server : NetSocket) (results : List AcceptResult) (ape : Ape) : Prop where
  clients : ∀ fd client, (fd, client) ∈ acceptedBy i (since base ape) → ClientFine ape (since base ape) i server fd client
  single : ((acceptedBy i (since base ape)).map (·.2)).Nodup
  returned : ape.frames = [] →
    .drained i ∈ since base ape ∧ (acceptedBy i (since base ape)).map (·.1) = descriptorsOf results

/-- `accept` does not report `ECONNABORTED`, `APE_socket_new` takes the descriptor, and the poller takes it as well. -/
def acceptsWell (ape : Ape) (call : ApeCall) : Bool :=
  match call, ape.frames with
  | .resume, .accept _ (.econnaborted :: _) :: _ => false
  | .resume, .accept _ (.descriptor fd opened nonblocking accepted :: _) :: _ =>
    nonblocking && (fd ≠ 0 || opened = some fd) && accepted && fd ∉ watchedFds ape.events
  | _, _ => true

/-- The application leaves the server and the clients of the dispatch alone. -/
def leavesClients (base : Ape) (i : Nat) (ape : Ape) (call : ApeCall) : Bool :=
  (aboutSocket ape call).all fun j => j ≠ i && j ∉ (acceptedBy i (since base ape)).map (·.2)

/-- The dispatch waits for a callback, or goes on with the results that are left. -/
structure Accepting (base : Ape) (i : Nat) (server : NetSocket) (results : List AcceptResult) (ape : Ape)
    (events : List ApeEvent) (upper : List ApeFrame) (rest : List AcceptResult) : Prop where
  log : ape.log = base.log ++ events
  listens : ape.sockets[i]? = some server
  clients : ∀ fd client, (fd, client) ∈ acceptedBy i events → client ≠ i ∧ ClientFine ape events i server fd client
  single : ((acceptedBy i events).map (·.2)).Nodup
  unborn : ∀ j, ape.sockets.length ≤ j → (∀ accepted, .registered j accepted ∉ events) ∧ .onConnect i j ∉ events
  frames : ape.frames = upper ++ [.accept i rest]
  upper : ∀ frame ∈ upper, isAccept frame = false ∧ ∀ j, frameSocket frame = some j →
    j < ape.sockets.length ∧ j ≠ i ∧ j ∉ (acceptedBy i events).map (·.2)
  undrained : .drained i ∉ events
  taken : (acceptedBy i events).map (·.1) ++ descriptorsOf rest = descriptorsOf results

section Parts

variable {base ape next : Ape} {i : Nat} {server : NetSocket} {results rest : List AcceptResult} {events : List ApeEvent}
  {upper : List ApeFrame}

theorem since_log (log : ape.log = base.log ++ events) : since base ape = events := by
  rw [since, log, List.drop_left]

theorem accepting_fine (kept : Accepting base i server results ape events upper rest) :
    AcceptFine base i server results ape := by
  have new := since_log kept.log
  refine { clients := ?_, single := ?_, returned := fun idle => ?_ }
  · intro fd client member
    rw [new] at member ⊢
    exact (kept.clients fd client member).2
  · rw [new]
    exact kept.single
  · rw [kept.frames] at idle
    exact absurd idle (by simp)

theorem acceptedBy_append (first second : List ApeEvent) :
    acceptedBy i (first ++ second) = acceptedBy i first ++ acceptedBy i second := List.filterMap_append ..

/-- Events of steps that are not turns of `ape_socket_accept`. -/
theorem about_events {about : Option Nat} (others : ∀ event ∈ events, EventAbout about event) :
    acceptedBy i events = [] ∧ (∀ client, .onConnect i client ∉ events) ∧ .drained i ∉ events := by
  refine ⟨?_, fun client member => others _ member, fun member => others _ member⟩
  rw [acceptedBy, List.filterMap_eq_nil_iff]
  intro event member
  cases event with
  | accepted j fd client => exact absurd (others _ member) id
  | _ => rfl

/-- Steps that leave the dispatch alone. -/
theorem accepting_aside {about : Option Nat} (kept : Accepting base i server results ape events upper rest)
    (aside : Aside ape next about)
    (apart : ∀ j, about = some j → j < ape.sockets.length ∧ j ≠ i ∧ j ∉ (acceptedBy i events).map (·.2)) :
    ∃ events upper, Accepting base i server results next events upper rest := by
  obtain ⟨new, log, others⟩ := aside.log
  obtain ⟨frames, entered, pushed⟩ := aside.frames
  obtain ⟨unaccepted, unannounced, undrained⟩ := @about_events i new about others
  have same : acceptedBy i (events ++ new) = acceptedBy i events := by
    rw [acceptedBy_append, unaccepted, List.append_nil]
  refine ⟨events ++ new, frames ++ upper, ?_⟩
  refine { log := ?_, listens := ?_, clients := ?_, single := ?_, unborn := ?_, frames := ?_, upper := ?_, undrained := ?_,
           taken := ?_ }
  · rw [log, kept.log, List.append_assoc]
  · exact aside.sockets i server (fun touched => (apart i touched).2.1 rfl) kept.listens
  · intro fd client member
    rw [same] at member
    obtain ⟨other, fine⟩ := kept.clients fd client member
    refine ⟨other, aside.sockets client _ ?_ fine.socket, List.mem_append_left _ fine.registered, ?_⟩
    · exact fun touched => (apart client touched).2.2 (List.mem_map_of_mem member)
    · rw [List.count_append, List.count_eq_zero.mpr (unannounced client), fine.announced, Nat.add_zero]
  · rw [same]
    exact kept.single
  · intro j beyond
    obtain ⟨unregistered, silent⟩ := kept.unborn j (Nat.le_trans aside.length beyond)
    constructor
    · intro accepted member
      rcases List.mem_append.mp member with before | after
      · exact unregistered accepted before
      · have below := (apart j (others _ after)).1
        exact absurd below (Nat.not_lt.mpr (Nat.le_trans aside.length beyond))
    · exact fun member => (List.mem_append.mp member).elim silent (unannounced j)
  · rw [entered, kept.frames, List.append_assoc]
  · intro frame member
    rw [same]
    rcases List.mem_append.mp member with new | old
    · refine ⟨(pushed frame new).1, fun j held => ?_⟩
      obtain ⟨below, others⟩ := apart j ((pushed frame new).2 j held)
      exact ⟨Nat.lt_of_lt_of_le below aside.length, others⟩
    · refine ⟨(kept.upper frame old).1, fun j held => ?_⟩
      obtain ⟨below, others⟩ := (kept.upper frame old).2 j held
      exact ⟨Nat.lt_of_lt_of_le below aside.length, others⟩
  · exact fun member => (List.mem_append.mp member).elim kept.undrained undrained
  · rw [same]
    exact kept.taken

theorem accepting_pop {frame : ApeFrame} (kept : Accepting base i server results ape events (frame :: upper) rest) :
    Accepting base i server results { ape with frames := upper ++ [.accept i rest] } events upper rest where
  log := kept.log
  listens := kept.listens
  clients fd client member :=
    have both := kept.clients fd client member
    ⟨both.1, both.2.socket, both.2.registered, both.2.announced⟩
  single := kept.single
  unborn := kept.unborn
  frames := rfl
  upper inner member := kept.upper inner (List.mem_cons_of_mem _ member)
  undrained := kept.undrained
  taken := kept.taken

/-- What a turn logs that accepts a descriptor. -/
def acceptEvents (i : Nat) (server : NetSocket) (fd : Int) (client : Nat) (added : Bool) : List ApeEvent :=
  [.accepted i fd client, .registered client added] ++
    if server.callbacks.onConnect.isSome then [.onConnect i client] else []

/-- The descriptor of the client: another one is opened where `accept` returned 0. -/
theorem turn_accepts {fd : Int} {opened : Option Int} {nonblocking accepted : Bool} {lower : List ApeFrame}
    (listens : ape.sockets[i]? = some server)
    (frames : ape.frames = .accept i (.descriptor fd opened nonblocking accepted :: rest) :: lower)
    (done : ape.resume = .ok next) :
    nonblocking = true ∧ ∃ sock, (if fd = 0 then opened else some fd) = some sock ∧
      next.sockets = ape.sockets ++ [clientOf i server sock] ∧
      next.log = ape.log ++
        acceptEvents i server fd ape.sockets.length (accepted && sock ∉ watchedFds ape.events) ∧
      next.frames = (if server.callbacks.onConnect.isSome then [.callback] else []) ++ .accept i rest :: lower := by
  rw [Ape.resume, frames] at done
  obtain ⟨socket, found, done⟩ := returned_bind done
  cases (socket_some found).1.symm.trans listens
  split at done
  · cases done
  · rename_i new opens
    obtain ⟨isNonblocking, sock, given, rfl⟩ := new_some opens
    have added : decide ((ape.events.eventsAdd sock (.socket ape.sockets.length) (eventRead ||| eventWrite)
        accepted).2 = 1) = (accepted && decide (sock ∉ watchedFds ape.events)) := by
      rw [add_result]
      cases accepted with
      | false => rfl
      | true => by_cases watched : sock ∈ watchedFds ape.events <;> simp [watched]
    refine ⟨isNonblocking, sock, given, ?_⟩
    cases done
    cases announces : server.callbacks.onConnect.isSome with
    | true =>
      refine ⟨rfl, ?_, rfl⟩
      rw [acceptEvents, announces, ← added]
      exact (List.append_assoc ..).trans (List.append_assoc ..)
    | false =>
      refine ⟨rfl, ?_, rfl⟩
      rw [acceptEvents, announces, ← added]
      exact List.append_assoc ..

theorem accepted_events {fd : Int} {client : Nat} {added : Bool} :
    acceptedBy i (acceptEvents i server fd client added) = [(fd, client)] := by
  cases announces : server.callbacks.onConnect.isSome <;> simp [acceptedBy, acceptEvents, announces]

theorem announced_events {fd : Int} {client other : Nat} {added : Bool} :
    (acceptEvents i server fd client added).count (.onConnect i other) =
      if other = client ∧ server.callbacks.onConnect.isSome = true then 1 else 0 := by
  by_cases same : other = client
  · subst same
    cases announces : server.callbacks.onConnect.isSome <;> simp [acceptEvents, announces]
  · cases announces : server.callbacks.onConnect.isSome <;> simp [acceptEvents, announces, same, Ne.symm same]

/-- A turn for a descriptor that all take. -/
theorem accepting_turn {fd : Int} {opened : Option Int} {nonblocking accepted : Bool}
    (kept : Accepting base i server results ape events [] (.descriptor fd opened nonblocking accepted :: rest))
    (done : ape.resume = .ok next) (same : fd ≠ 0 ∨ opened = some fd) (taken : accepted = true ∧ fd ∉ watchedFds ape.events) :
    ∃ events upper, Accepting base i server results next events upper rest := by
  obtain ⟨-, sock, given, sockets, log, frames⟩ := turn_accepts kept.listens kept.frames done
  have own : sock = fd := by
    split at given
    · rename_i zero
      rcases same with other | opens
      · exact absurd zero other
      · exact Option.some.inj (given.symm.trans opens)
    · exact (Option.some.inj given).symm
  subst own
  have added : (accepted && decide (sock ∉ watchedFds ape.events)) = true := by simp [taken]
  rw [added] at log
  have below : ∀ fd client, (fd, client) ∈ acceptedBy i events → client < ape.sockets.length :=
    fun fd client member => (List.getElem?_eq_some_iff.mp (kept.clients fd client member).2.socket).1
  have listening : i < ape.sockets.length := (List.getElem?_eq_some_iff.mp kept.listens).1
  have pairs : acceptedBy i (events ++ acceptEvents i server sock ape.sockets.length true) =
      acceptedBy i events ++ [(sock, ape.sockets.length)] := by rw [acceptedBy_append, accepted_events]
  refine ⟨events ++ acceptEvents i server sock ape.sockets.length true,
    if server.callbacks.onConnect.isSome then [.callback] else [], ?_⟩
  refine { log := ?_, listens := ?_, clients := ?_, single := ?_, unborn := ?_, frames := frames, upper := ?_,
           undrained := ?_, taken := ?_ }
  · rw [log, kept.log, List.append_assoc]
  · rw [sockets, List.getElem?_append_left listening, kept.listens]
  · intro fd client member
    rw [pairs] at member
    rcases List.mem_append.mp member with old | new
    · obtain ⟨other, fine⟩ := kept.clients fd client old
      have earlier := below fd client old
      refine ⟨other, ?_, List.mem_append_left _ fine.registered, ?_⟩
      · rw [sockets, List.getElem?_append_left earlier, fine.socket]
      · rw [List.count_append, announced_events, if_neg fun both => Nat.ne_of_lt earlier both.1, fine.announced, Nat.add_zero]
    · cases List.mem_singleton.mp new
      refine ⟨Nat.ne_of_gt listening, ?_, List.mem_append_right _ (by simp [acceptEvents]), ?_⟩
      · rw [sockets, List.getElem?_concat_length]
      · rw [List.count_append, announced_events, List.count_eq_zero.mpr (kept.unborn _ (Nat.le_refl _)).2, Nat.zero_add]
        simp only [true_and]
  · rw [pairs, List.map_append, List.nodup_append]
    refine ⟨kept.single, List.nodup_singleton _, fun client old other new => ?_⟩
    obtain ⟨⟨fd, client'⟩, member, rfl⟩ := List.mem_map.mp old
    cases List.mem_singleton.mp new
    exact Nat.ne_of_lt (below fd client' member)
  · intro j beyond
    rw [sockets, List.length_append, List.length_singleton] at beyond
    obtain ⟨unregistered, silent⟩ := kept.unborn j (Nat.le_of_succ_le beyond)
    have other : j ≠ ape.sockets.length := Nat.ne_of_gt beyond
    constructor
    · intro added member
      refine (List.mem_append.mp member).elim (unregistered added) ?_
      cases announces : server.callbacks.onConnect.isSome <;> simp [acceptEvents, announces, other]
    · intro member
      refine (List.mem_append.mp member).elim silent fun new => ?_
      have once := List.count_pos_iff.mpr new
      rw [announced_events, if_neg fun both => other both.1] at once
      cases once
  · intro frame member
    cases announces : server.callbacks.onConnect.isSome with
    | true =>
      rw [announces] at member
      cases List.mem_singleton.mp member
      exact ⟨rfl, fun j held => by cases held⟩
    | false =>
      rw [announces] at member
      cases member
  · intro member
    refine (List.mem_append.mp member).elim kept.undrained ?_
    cases announces : server.callbacks.onConnect.isSome <;> simp [acceptEvents, announces]
  · have before := kept.taken
    rw [pairs, List.map_append, List.append_assoc]
    exact before

/-- A turn for a descriptor that not all take leaves a client that is not as it should be. -/
theorem turn_breaks {fd : Int} {opened : Option Int} {nonblocking accepted : Bool}
    (kept : Accepting base i server results ape events [] (.descriptor fd opened nonblocking accepted :: rest))
    (done : ape.resume = .ok next) (ill : ¬ ((fd ≠ 0 ∨ opened = some fd) ∧ accepted = true ∧ fd ∉ watchedFds ape.events)) :
    ¬ AcceptFine base i server results next := by
  obtain ⟨-, sock, given, sockets, log, frames⟩ := turn_accepts kept.listens kept.frames done
  intro fine
  rw [kept.log, List.append_assoc] at log
  have new := since_log log
  have member : (fd, ape.sockets.length) ∈ acceptedBy i (since base next) := by
    rw [new, acceptedBy_append, accepted_events]
    exact List.mem_append_right _ List.mem_cons_self
  have client := fine.clients fd ape.sockets.length member
  have own : sock = fd := by
    have there := client.socket
    rw [sockets, List.getElem?_concat_length] at there
    exact congrArg NetSocket.fd (Option.some.inj there)
  subst own
  apply ill
  constructor
  · by_cases zero : sock = 0
    · rw [if_pos zero] at given
      exact .inr given
    · exact .inl zero
  · have registered := client.registered
    rw [new] at registered
    have last := (List.mem_append.mp registered).resolve_left ((kept.unborn _ (Nat.le_refl _)).1 true)
    have added : (accepted && decide (sock ∉ watchedFds ape.events)) = true := by
      cases added : accepted && decide (sock ∉ watchedFds ape.events) with
      | true => rfl
      | false =>
        rw [added] at last
        cases announces : server.callbacks.onConnect.isSome <;> simp [acceptEvents, announces] at last
    rw [Bool.and_eq_true, decide_eq_true_iff] at added
    exact added

end Parts

section Dispatch

variable {base start ape next : Ape} {i : Nat} {server : NetSocket} {results rest : List AcceptResult} {call : ApeCall}
  {events : List ApeEvent} {upper : List ApeFrame}

/-- The dispatch goes on, or it has returned as it should. -/
def Dispatching (base : Ape) (i : Nat) (server : NetSocket) (results : List AcceptResult) (ape : Ape) : Prop :=
  (∃ events upper rest, Accepting base i server results ape events upper rest) ∨
    (ape.frames = [] ∧ AcceptFine base i server results ape)

theorem dispatching_fine (dispatching : Dispatching base i server results ape) : AcceptFine base i server results ape := by
  obtain ⟨events, upper, rest, kept⟩ | ⟨-, fine⟩ := dispatching
  · exact accepting_fine kept
  · exact fine

/-- Only the frame at the bottom is one of `ape_socket_accept`. -/
theorem accept_bottom {frame : ApeFrame} {lower : List ApeFrame}
    (kept : Accepting base i server results ape events upper rest) (frames : ape.frames = frame :: lower)
    (accept : isAccept frame = true) :
    upper = [] ∧ frame = .accept i rest ∧ lower = [] := by
  have whole := kept.frames
  rw [frames] at whole
  cases upper with
  | nil => exact ⟨rfl, List.cons.inj whole⟩
  | cons top upper =>
    have not_accept := (kept.upper top List.mem_cons_self).1
    rw [← (List.cons.inj whole).1, accept] at not_accept
    cases not_accept

theorem dispatching_step (dispatching : Dispatching base i server results ape)
    (inside : ape.frames ≠ [] ∧ leavesClients base i ape call = true) (well : acceptsWell ape call = true)
    (done : ape.step call = .ok next) : Dispatching base i server results next := by
  obtain ⟨waiting, leaves⟩ := inside
  obtain ⟨events, upper, rest, kept⟩ | ⟨idle, -⟩ := dispatching
  · by_cases resumes : call = .resume
    · subst resumes
      cases upper with
      | cons frame upper =>
        have frames : ape.frames = frame :: (upper ++ [.accept i rest]) := kept.frames
        obtain ⟨other, held⟩ := kept.upper frame List.mem_cons_self
        obtain ⟨events', upper', kept'⟩ := accepting_aside (accepting_pop kept) (aside_resume frames other done) held
        exact .inl ⟨events', upper', rest, kept'⟩
      | nil =>
        have frames : ape.frames = [.accept i rest] := kept.frames
        cases rest with
        | nil =>
          have turned : ape.resume = .ok { ape with frames := [], log := ape.log ++ [.drained i] } := by
            rw [Ape.resume, frames]
            rfl
          cases turned.symm.trans done
          have new : since base { ape with frames := [], log := ape.log ++ [.drained i] } = events ++ [.drained i] := by
            apply since_log
            rw [kept.log, List.append_assoc]
          have same : acceptedBy i (events ++ [.drained i]) = acceptedBy i events :=
            (acceptedBy_append _ _).trans (List.append_nil _)
          refine .inr ⟨rfl, { clients := ?_, single := ?_, returned := fun _ => ?_ }⟩
          · intro fd client member
            rw [new, same] at member
            obtain ⟨-, fine⟩ := kept.clients fd client member
            rw [new]
            refine ⟨fine.socket, List.mem_append_left _ fine.registered, ?_⟩
            rw [List.count_append, fine.announced]
            simp
          · rw [new, same]
            exact kept.single
          · rw [new, same]
            refine ⟨List.mem_append_right _ List.mem_cons_self, ?_⟩
            have taken := kept.taken
            rwa [descriptorsOf, List.filterMap_nil, List.append_nil] at taken
        | cons result rest =>
          cases result with
          | eintr =>
            have turned : ape.resume = .ok { ape with frames := [.accept i rest] } := by
              rw [Ape.resume, frames]
              rfl
            cases turned.symm.trans done
            have kept' : Accepting base i server results { ape with frames := [.accept i rest] } events [] rest :=
              { log := kept.log
                listens := kept.listens
                clients := fun fd client member =>
                  have both := kept.clients fd client member
                  ⟨both.1, both.2.socket, both.2.registered, both.2.announced⟩
                single := kept.single
                unborn := kept.unborn
                frames := rfl
                upper := fun frame member => by cases member
                undrained := kept.undrained
                taken := kept.taken }
            exact .inl ⟨events, [], rest, kept'⟩
          | econnaborted =>
            simp only [acceptsWell, frames] at well
            cases well
          | descriptor fd opened nonblocking accepted =>
            simp only [acceptsWell, frames, Bool.and_eq_true, Bool.or_eq_true, decide_eq_true_iff] at well
            obtain ⟨⟨⟨-, same⟩, taken⟩, unwatched⟩ := well
            obtain ⟨events', upper', kept'⟩ := accepting_turn kept done same ⟨taken, unwatched⟩
            exact .inl ⟨events', upper', rest, kept'⟩
    · have apart : ∀ j, aboutSocket ape call = some j →
          j < ape.sockets.length ∧ j ≠ i ∧ j ∉ (acceptedBy i events).map (·.2) := by
        intro j about
        rw [leavesClients, about, Option.all_some, Bool.and_eq_true, decide_eq_true_iff, decide_eq_true_iff,
          since_log kept.log] at leaves
        exact ⟨about_there waiting done about, leaves⟩
      obtain ⟨events', upper', kept'⟩ := accepting_aside kept (aside_step waiting resumes done) apart
      exact .inl ⟨events', upper', rest, kept'⟩
  · exact absurd idle waiting

theorem dispatching_named (dispatching : Dispatching base i server results ape)
    (inside : ape.frames ≠ [] ∧ leavesClients base i ape call = true) (well : acceptsWell ape call = true) :
    ape.step call ≠ .error .nullClient := by
  obtain ⟨waiting, -⟩ := inside
  by_cases resumes : call = .resume
  · subst resumes
    obtain ⟨frame, lower, frames⟩ := List.exists_cons_of_ne_nil waiting
    cases accept : isAccept frame with
    | false => exact named_resume frames accept
    | true =>
      obtain ⟨events, upper, rest, kept⟩ | ⟨idle, -⟩ := dispatching
      · obtain ⟨-, rfl, rfl⟩ := accept_bottom kept frames accept
        show ape.resume ≠ _
        rw [Ape.resume, frames]
        cases rest with
        | nil => rintro ⟨⟩
        | cons result rest =>
          cases result with
          | eintr => rintro ⟨⟩
          | econnaborted => rintro ⟨⟩
          | descriptor fd opened nonblocking accepted =>
            simp only [acceptsWell, frames, Bool.and_eq_true, Bool.or_eq_true, decide_eq_true_iff] at well
            obtain ⟨⟨⟨isNonblocking, same⟩, -⟩, -⟩ := well
            apply avoids_bind (avoids_socket (by simp))
            intro socket _
            have opens : ∃ sock, (if fd = 0 then opened else some fd) = some sock := by
              split
              · rename_i zero
                exact ⟨fd, same.resolve_left (not_not.mpr zero)⟩
              · exact ⟨fd, rfl⟩
            obtain ⟨sock, given⟩ := opens
            rw [Ape.apeSocketNew, if_pos isNonblocking, given]
            rintro ⟨⟩
      · exact absurd idle waiting
  · exact named_step waiting resumes

theorem dispatching_breaks (live : server.freed = false) (dispatching : Dispatching base i server results ape)
    (inside : ape.frames ≠ [] ∧ leavesClients base i ape call = true) (ill : ¬ acceptsWell ape call = true)
    (named : ape.step call ≠ .error .nullClient) :
    ∃ next, ape.step call = .ok next ∧ ¬ AcceptFine base i server results next := by
  obtain ⟨waiting, -⟩ := inside
  obtain ⟨frame, lower, frames⟩ := List.exists_cons_of_ne_nil waiting
  have accept : call = .resume ∧ isAccept frame = true := by
    unfold acceptsWell at ill
    rw [frames] at ill
    split at ill
    · rename_i same
      exact ⟨rfl, by rw [(List.cons.inj same).1]; rfl⟩
    · rename_i same
      exact ⟨rfl, by rw [(List.cons.inj same).1]; rfl⟩
    · exact absurd rfl ill
  obtain ⟨rfl, accept⟩ := accept
  obtain ⟨events, upper, rest, kept⟩ | ⟨idle, -⟩ := dispatching
  · obtain ⟨rfl, rfl, rfl⟩ := accept_bottom kept frames accept
    cases rest with
    | nil =>
      exact absurd (by simp [acceptsWell, frames]) ill
    | cons result rest =>
      cases result with
      | eintr =>
        exact absurd (by simp [acceptsWell, frames]) ill
      | econnaborted =>
        have turned : ape.resume = .ok { ape with frames := [] } := by
          rw [Ape.resume, frames]
          rfl
        refine ⟨_, turned, fun fine => kept.undrained ?_⟩
        have same : since base { ape with frames := [] } = events := since_log kept.log
        have drained := (fine.returned rfl).1
        rwa [same] at drained
      | descriptor fd opened nonblocking accepted =>
        have found := socket_of kept.listens live
        have outcome : (∃ next, ape.resume = .ok next) ∨ ape.resume = .error .nullClient := by
          rw [Ape.resume, frames]
          have found' : Ape.socket { ape with frames := [] } i = .ok server := found
          simp only [Ape.acceptTurn, found', Except.bind]
          cases Ape.apeSocketNew server.proto fd opened nonblocking with
          | none => exact .inr rfl
          | some new => exact .inl ⟨_, rfl⟩
        obtain ⟨next, done⟩ := outcome.resolve_right named
        refine ⟨next, done, turn_breaks kept done ?_⟩
        rintro ⟨same, taken, unwatched⟩
        obtain ⟨isNonblocking, -⟩ := turn_accepts kept.listens kept.frames done
        apply ill
        simp only [acceptsWell, frames, Bool.and_eq_true, Bool.or_eq_true, decide_eq_true_iff]
        exact ⟨⟨⟨isNonblocking, same⟩, taken⟩, unwatched⟩
  · exact absurd idle waiting

theorem dispatching_starts (here : base.sockets[i]? = some server)
    (dispatched : base.step (.acceptable i results) = .ok start) :
    server.freed = false ∧ Dispatching base i server results start := by
  rw [Ape.step] at dispatched
  split at dispatched
  · rename_i idle
    have unframed : base.frames = [] := List.isEmpty_iff.mp idle
    obtain ⟨socket, found, dispatched⟩ := returned_bind dispatched
    obtain ⟨there, live⟩ := socket_some found
    cases there.symm.trans here
    split at dispatched
    · cases dispatched
      refine ⟨live, .inl ⟨[], [], results, ?_⟩⟩
      refine { log := (List.append_nil _).symm, listens := here, clients := fun fd client member => ?_,
               single := List.nodup_nil, unborn := fun j _ => ⟨fun _ member => ?_, fun member => ?_⟩,
               frames := ?_, upper := fun frame member => ?_,
               undrained := fun member => ?_, taken := List.nil_append _ }
      · cases member
      · cases member
      · cases member
      · rw [Ape.enter, unframed]
        rfl
      · cases member
      · cases member
    · cases dispatched
  · cases dispatched

/-- In a dispatch whose callbacks leave the server and its clients alone, all is accepted as it should be exactly if each turn
    accepts well. -/
theorem dispatch_accepts_iff (calls : List ApeCall) (here : base.sockets[i]? = some server)
    (dispatched : base.step (.acceptable i results) = .ok start)
    (inside : EachStep Ape.step start calls fun ape call => ape.frames ≠ [] ∧ leavesClients base i ape call = true) :
    (Throughout Ape.step start calls (AcceptFine base i server results) ∧
        EachStep Ape.step start calls fun ape call => ape.step call ≠ .error .nullClient) ↔
      EachStep Ape.step start calls fun ape call => acceptsWell ape call = true := by
  obtain ⟨live, starts⟩ := dispatching_starts here dispatched
  apply throughout_and_each_iff starts
  · exact fun _ => dispatching_fine
  · exact fun _ _ _ => dispatching_step
  · exact fun _ _ => dispatching_named
  · exact fun _ _ => dispatching_breaks live
  · exact inside

/-- A server that listens, with a function for new clients. -/
def listeningServer : NetSocket where
  fd := 5
  proto := .tcp
  type := .server
  state := .online
  callbacks := { onConnect := some 1 }

def listeningApe : Ape := { sockets := [listeningServer] }

/-- Two connections, and one between them that was aborted before it was accepted. -/
def abortedBetween : List AcceptResult := [.descriptor 6 none true true, .econnaborted, .descriptor 7 none true true]

theorem aborted_strands :
    ∃ ape, runAll Ape.step listeningApe [.acceptable 0 abortedBetween, .resume, .resume, .resume] = .ok ape ∧
      ape.frames = [] ∧ .drained 0 ∉ since listeningApe ape ∧
        ¬ AcceptFine listeningApe 0 listeningServer abortedBetween ape := by
  refine ⟨_, rfl, rfl, by decide, fun fine => ?_⟩
  exact absurd (fine.returned rfl).1 (by decide)

def interruptedBetween : List AcceptResult := [.descriptor 6 none true true, .eintr, .descriptor 7 none true true]

/-- Both are accepted where a signal interrupts `accept` between them. -/
theorem interrupted_accepts :
    Throughout Ape.step (listeningApe.enter [.accept 0 interruptedBetween]) (List.replicate 6 .resume)
        (AcceptFine listeningApe 0 listeningServer interruptedBetween) ∧
      EachStep Ape.step (listeningApe.enter [.accept 0 interruptedBetween]) (List.replicate 6 .resume) fun ape call =>
        ape.step call ≠ .error .nullClient :=
  (dispatch_accepts_iff (List.replicate 6 .resume) rfl rfl (each_of_check rfl)).mpr (each_of_check rfl)

end Dispatch

end ZapeProof
