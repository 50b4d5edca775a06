import Zape.Ape.Descriptors
import Zape.Ape.Lookups

/-! The sockets and the lookups that point at each other, in whatever order they end. -/
namespace ZapeProof

open Machine ZapeModel

/-- The lookup will call back for the socket. -/
def AwaitsLookup (ape : Ape) (q i : Nat) : Prop :=
  ∃ params, ape.queries[q]? = some params ∧ params.arg = i ∧ params.done = false ∧ params.invalidate = false

/-- Whether the socket is offline, and its `dns_state`. -/
def viewOf (ape : Ape) (i : Nat) : Option (Bool × Option Nat) :=
  ape.sockets[i]?.map fun socket => (decide (socket.state = .offline), socket.dnsState)

/-- Something is about to free the socket, or did. -/
def SocketEnding (ape : Ape) (i : Nat) : Prop :=
  closingOf ape i ≠ 0 ∨ .socketFree i ∈ ape.timers ∨ ape.sockets[i]?.any (·.freed) = true

/-- `APE_socket_connect` is running for the socket, or another function that will free it. -/
def holdsSocket (i : Nat) : ApeFrame → Bool
  | .close j _ => j == i
  | .ask _ j => j == i
  | .connect j => j == i
  | _ => false

/-- `ares_gethostbyname` is running for the socket, and did not call back yet. -/
def asksFor (ape : Ape) (i : Nat) : Bool :=
  ape.frames.any fun
    | .ask q j => j == i && ape.queries[q]?.any fun params => !params.done
    | _ => false

/-- `APE_socket_connect` is running for the socket. -/
def isConnecting (ape : Ape) (i : Nat) : Bool :=
  ape.frames.any fun
    | .ask _ j => j == i
    | .connect j => j == i
    | _ => false

/-- A lookup will call back for the socket. -/
def isAwaited (ape : Ape) (i : Nat) : Bool :=
  ape.queries.any fun params => params.arg == i && !params.done && !params.invalidate

/-- The application uses no socket that `ape_socket_close` has handled, connects a socket that is not being connected, and
    does not shut it down while its lookup is being asked for. -/
def looksUpWell (ape : Ape) : ApeCall → Bool
  | .listen i _ _ _ _ => stateOf ape i ≠ some .offline
  | .connect i port _ _ _ =>
    if port = 0#16 then !asksFor ape i else stateOf ape i ≠ some .offline && !isConnecting ape i && !isAwaited ape i
  | .shutdown i _ => !asksFor ape i
  | .shutdownNow i => !asksFor ape i
  | _ => true

/-- The socket that a lookup waits for is not offline, and its `dns_state` is the lookup, or will be once
    `ares_gethostbyname` returns; and no other lookup waits for it. -/
structure LookupTied (ape : Ape) (i : Nat) : Prop where
  held : ∀ q, AwaitsLookup ape q i → ∃ state, viewOf ape i = some (false, state) ∧ (state = some q ∨ .ask q i ∈ ape.frames)
  owner : ∀ q, viewOf ape i = some (false, some q) → AwaitsLookup ape q i
  single : ∀ q q', AwaitsLookup ape q i → AwaitsLookup ape q' i → q = q'
  connects : .connect i ∈ ape.frames → ∀ q, ¬ AwaitsLookup ape q i
  asks : ∀ q, .ask q i ∈ ape.frames → ∃ params, ape.queries[q]? = some params ∧ params.arg = i ∧ params.freed = false ∧
    (params.done = false → params.invalidate = false)
  asked : ∀ q, .ask q i ∈ ape.frames → ∀ q', AwaitsLookup ape q' i → q' = q
  ending : SocketEnding ape i → ∃ state, viewOf ape i = some (true, state)
  dials : ∀ state, .dialed i state ∈ ape.log → state ≠ .offline

section Parts

variable {ape next : Ape} {i j : Nat}

/-- Steps that leave alone what holds a socket and its lookup. -/
theorem tied_rests (kept : LookupTied ape i) (waits : ∀ q, AwaitsLookup next q i ↔ AwaitsLookup ape q i)
    (view : viewOf next i = viewOf ape i) (asks : ∀ q, .ask q i ∈ next.frames ↔ .ask q i ∈ ape.frames)
    (connects : .connect i ∈ next.frames → .connect i ∈ ape.frames)
    (records : ∀ q, .ask q i ∈ ape.frames → next.queries[q]? = ape.queries[q]?)
    (ending : SocketEnding next i → SocketEnding ape i)
    (dials : ∀ state, .dialed i state ∈ next.log → .dialed i state ∈ ape.log) : LookupTied next i where
  held q waiting := by
    rw [view, asks]
    exact kept.held q ((waits q).mp waiting)
  owner q held := by
    rw [waits]
    exact kept.owner q (view ▸ held)
  single q q' first second := kept.single q q' ((waits q).mp first) ((waits q').mp second)
  connects connecting q waiting := kept.connects (connects connecting) q ((waits q).mp waiting)
  asks q asking := by
    have asking' := (asks q).mp asking
    rw [records q asking']
    exact kept.asks q asking'
  asked q asking q' waiting := kept.asked q ((asks q).mp asking) q' ((waits q').mp waiting)
  ending ends := by
    rw [view]
    exact kept.ending (ending ends)
  dials state dialed := kept.dials state (dials state dialed)

theorem tied_log {events : List ApeEvent} (kept : LookupTied ape i) (undialed : ∀ state, .dialed i state ∉ events) :
    LookupTied { ape with log := ape.log ++ events } i := by
  refine @tied_rests ape _ i kept (fun _ => Iff.rfl) rfl (fun _ => Iff.rfl) id (fun _ _ => rfl) id ?_
  intro state member
  exact (List.mem_append.mp member).resolve_right (undialed state)

theorem frames_hold {frames : List ApeFrame} (others : ∀ frame ∈ frames, holdsSocket i frame = false) (rest : List ApeFrame) :
    (∀ q, .ask q i ∈ frames ++ rest ↔ .ask q i ∈ rest) ∧ (.connect i ∈ frames ++ rest → .connect i ∈ rest) ∧
      (frames ++ rest).countP (isClosing i) = rest.countP (isClosing i) := by
  have unasked : ∀ q, .ask q i ∉ frames := fun q member => by simpa [holdsSocket] using others _ member
  have unconnected : .connect i ∉ frames := fun member => by simpa [holdsSocket] using others _ member
  refine ⟨fun q => ?_, fun member => (List.mem_append.mp member).resolve_left unconnected, ?_⟩
  · rw [List.mem_append, or_iff_right (unasked q)]
  · rw [List.countP_append, Nat.add_eq_right, List.countP_eq_zero]
    intro frame member closing
    cases frame with
    | close j now =>
      have other := others _ member
      rw [holdsSocket] at other
      rw [isClosing, other] at closing
      cases closing
    | _ => cases closing

/-- What ends a socket did so before, part by part. -/
theorem ending_before (ends : SocketEnding next i) (closing : closingOf next i ≠ 0 → closingOf ape i ≠ 0)
    (timers : .socketFree i ∈ next.timers → .socketFree i ∈ ape.timers)
    (freed : next.sockets[i]?.any (·.freed) = true → ape.sockets[i]?.any (·.freed) = true) : SocketEnding ape i :=
  ends.imp closing (Or.imp timers freed)

theorem closing_before (grown : ∀ frame, frame ∈ next.frames → frame ∈ ape.frames) (closing : closingOf next i ≠ 0) :
    closingOf ape i ≠ 0 := by
  obtain ⟨inner, member, closes⟩ := List.countP_pos_iff.mp (Nat.pos_of_ne_zero closing)
  exact Nat.ne_of_gt (List.countP_pos_iff.mpr ⟨inner, grown _ member, closes⟩)

theorem tied_enter {frames : List ApeFrame} (kept : LookupTied ape i)
    (others : ∀ frame ∈ frames, holdsSocket i frame = false) : LookupTied (ape.enter frames) i := by
  obtain ⟨asks, connects, closing⟩ := frames_hold others ape.frames
  refine @tied_rests ape _ i kept (fun _ => Iff.rfl) rfl asks connects (fun _ _ => rfl) ?_ fun _ => id
  refine fun ends => ending_before ends ?_ id id
  rw [closingOf, Ape.enter, closing]
  exact id

/-- A function returns, other than `ares_gethostbyname`. -/
theorem tied_pop {frame : ApeFrame} {rest : List ApeFrame} (kept : LookupTied ape i) (frames : ape.frames = frame :: rest)
    (other : ∀ q, frame ≠ .ask q i) : LookupTied (poppedApe ape rest) i := by
  have grown : ∀ waiting, waiting ∈ rest → waiting ∈ ape.frames := by
    intro waiting member
    rw [frames]
    exact List.mem_cons_of_mem _ member
  refine @tied_rests ape _ i kept (fun _ => Iff.rfl) rfl ?_ (grown _) (fun _ _ => rfl) ?_ fun _ => id
  · intro q
    rw [frames]
    exact (List.mem_cons.trans (or_iff_right fun same => other q same.symm)).symm
  · exact fun ends => ending_before ends (closing_before grown) id id

/-- A socket that no lookup waits for any more. -/
theorem tied_alone (unwaited : ∀ q, ¬ AwaitsLookup next q i) (unheld : ∀ q, viewOf next i ≠ some (false, some q))
    (asks : ∀ q, .ask q i ∈ next.frames → ∃ params, next.queries[q]? = some params ∧ params.arg = i ∧ params.freed = false ∧
      (params.done = false → params.invalidate = false))
    (ending : SocketEnding next i → ∃ state, viewOf next i = some (true, state))
    (dials : ∀ state, .dialed i state ∈ next.log → state ≠ .offline) : LookupTied next i where
  held q waiting := absurd waiting (unwaited q)
  owner q held := absurd held (unheld q)
  single q _ waiting := absurd waiting (unwaited q)
  connects _ := unwaited
  asks := asks
  asked _ _ q waiting := absurd waiting (unwaited q)
  ending := ending
  dials := dials

theorem viewOf_change (f : NetSocket → NetSocket) :
    viewOf (ape.change j f) i =
      if j = i then ape.sockets[i]?.map fun socket => (decide ((f socket).state = .offline), (f socket).dnsState)
      else viewOf ape i := by
  rw [viewOf, Ape.change, List.getElem?_modify, viewOf]
  split
  · simp [Function.comp_def]
  · simp

theorem freed_change {f : NetSocket → NetSocket} (freed : ∀ socket, (f socket).freed = socket.freed) :
    (ape.change j f).sockets[i]?.any (·.freed) = ape.sockets[i]?.any (·.freed) := by
  rw [Ape.change, List.getElem?_modify]
  cases ape.sockets[i]? with
  | none => rfl
  | some socket => by_cases same : j = i <;> simp [same, freed]

theorem tied_change {f : NetSocket → NetSocket} (kept : LookupTied ape i) (freed : ∀ socket, (f socket).freed = socket.freed)
    (rests : j = i → ∀ socket, ape.sockets[j]? = some socket → ((f socket).state = .offline ↔ socket.state = .offline) ∧
      (f socket).dnsState = socket.dnsState) : LookupTied (ape.change j f) i := by
  refine @tied_rests ape _ i kept (fun _ => Iff.rfl) ?_ (fun _ => Iff.rfl) id (fun _ _ => rfl) ?_ fun _ => id
  · rw [viewOf_change]
    split
    · rename_i same
      subst same
      cases here : ape.sockets[j]? with
      | none => simp [viewOf, here]
      | some socket =>
        obtain ⟨offline, state⟩ := rests rfl socket here
        simp [viewOf, here, offline, state]
    · rfl
  · refine fun ends => ending_before ends id id ?_
    rw [freed_change freed]
    exact id

theorem tied_dispatch {async : ApeAsync} (kept : LookupTied ape i)
    (frees : async = .socketFree i → ∃ state, viewOf ape i = some (true, state)) : LookupTied (ape.dispatch async) i := by
  by_cases same : async = .socketFree i
  · exact { kept with ending := fun _ => frees same }
  · refine @tied_rests ape _ i kept (fun _ => Iff.rfl) rfl (fun _ => Iff.rfl) id (fun _ _ => rfl) ?_ fun _ => id
    refine fun ends => ending_before ends id (fun timed => ?_) id
    exact (List.mem_cons.mp timed).resolve_left fun equal => same equal.symm

/-- The memory of a socket is freed that is offline. -/
theorem tied_free (kept : LookupTied ape i) (offline : j = i → ∃ state, viewOf ape i = some (true, state)) :
    LookupTied (ape.change j ({ · with freed := true })) i := by
  have view : viewOf (ape.change j ({ · with freed := true })) i = viewOf ape i := by
    rw [viewOf_change]
    split <;> rfl
  by_cases same : j = i
  · exact { kept with
      held := fun q waiting => view.symm ▸ kept.held q waiting
      owner := fun q held => kept.owner q (view ▸ held)
      ending := fun _ => view.symm ▸ offline same }
  · refine @tied_rests ape _ i kept (fun _ => Iff.rfl) view (fun _ => Iff.rfl) id (fun _ _ => rfl) ?_ fun _ => id
    refine fun ends => ending_before ends id id ?_
    rw [Ape.change, List.getElem?_modify_ne _ _ same]
    exact id

theorem tied_events {events : Fdevent} (kept : LookupTied ape i) : LookupTied (ape.withEvents events) i :=
  @tied_rests ape _ i kept (fun _ => Iff.rfl) rfl (fun _ => Iff.rfl) id (fun _ _ => rfl) id fun _ => id

theorem tied_register {fd : Int} {accepted : Bool} (kept : LookupTied ape i) : LookupTied (ape.register j fd accepted) i :=
  tied_log (tied_events kept) (by simp)

theorem tied_append {new : List NetSocket} (kept : LookupTied ape i)
    (fresh : ∀ socket ∈ new, socket.state ≠ .offline ∧ socket.dnsState = none ∧ socket.freed = false) :
    LookupTied { ape with sockets := ape.sockets ++ new } i := by
  by_cases old : i < ape.sockets.length
  · have here : ({ ape with sockets := ape.sockets ++ new } : Ape).sockets[i]? = ape.sockets[i]? :=
      List.getElem?_append_left old
    refine @tied_rests ape _ i kept (fun _ => Iff.rfl) ?_ (fun _ => Iff.rfl) id (fun _ _ => rfl) ?_ fun _ => id
    · rw [viewOf, here, viewOf]
    · rw [SocketEnding, here]
      exact id
  · have unborn : ape.sockets[i]? = none := List.getElem?_eq_none (Nat.le_of_not_lt old)
    have unviewed : viewOf ape i = none := by rw [viewOf, unborn, Option.map_none]
    have unwaited : ∀ q, ¬ AwaitsLookup ape q i := by
      intro q waiting
      obtain ⟨state, view, -⟩ := kept.held q waiting
      cases unviewed.symm.trans view
    have here : ({ ape with sockets := ape.sockets ++ new } : Ape).sockets[i]? = new[i - ape.sockets.length]? :=
      List.getElem?_append_right (Nat.le_of_not_lt old)
    refine tied_alone unwaited ?_ kept.asks ?_ kept.dials
    · intro q view
      rw [viewOf, here] at view
      obtain ⟨socket, there, fields⟩ := Option.map_eq_some_iff.mp view
      have state := (Prod.mk.inj fields).2
      rw [(fresh socket (List.mem_of_getElem? there)).2.1] at state
      cases state
    · intro ends
      have before : SocketEnding ape i := by
        refine ending_before ends id id ?_
        rw [here]
        cases there : new[i - ape.sockets.length]? with
        | none => exact fun dead => by cases dead
        | some socket =>
          rw [Option.any_some, (fresh socket (List.mem_of_getElem? there)).2.2]
          exact fun dead => by cases dead
      obtain ⟨state, view⟩ := kept.ending before
      cases unviewed.symm.trans view

theorem view_some {socket : NetSocket} (here : ape.sockets[j]? = some socket) :
    viewOf ape j = some (decide (socket.state = .offline), socket.dnsState) := by
  rw [viewOf, here, Option.map_some]

theorem invalidated_at (state : Option Nat) (q : Nat) :
    (invalidated ape state)[q]? =
      ape.queries[q]?.map fun params => if state = some q then { params with invalidate := true } else params := by
  cases state with
  | none => simp [invalidated]
  | some k =>
    rw [invalidated, List.getElem?_modify]
    simp only [Option.some.injEq]
    rfl

/-- The lookups that wait once that of a socket is invalidated. -/
theorem waits_invalidated {state : Option Nat} (queries : next.queries = invalidated ape state) (q : Nat) :
    AwaitsLookup next q i ↔ AwaitsLookup ape q i ∧ state ≠ some q := by
  rw [AwaitsLookup, queries, invalidated_at]
  by_cases same : state = some q
  · simp [same]
  · simp [same, AwaitsLookup]

theorem tied_closing {socket : NetSocket} {now : Bool} (all : ∀ i, LookupTied ape i) (here : ape.sockets[j]? = some socket)
    (open_ : socket.state ≠ .offline)
    (asked : ∀ q, .ask q j ∈ ape.frames → ¬ AwaitsLookup ape q j) : LookupTied (closingApe ape j socket now) i := by
  have kept := all i
  have view := view_some here
  rw [decide_eq_false open_] at view
  have waits := @waits_invalidated ape (closingApe ape j socket now) i socket.dnsState rfl
  obtain ⟨asks, connects, closing⟩ : (∀ q, .ask q i ∈ (closingApe ape j socket now).frames ↔ .ask q i ∈ ape.frames) ∧
      (.connect i ∈ (closingApe ape j socket now).frames → .connect i ∈ ape.frames) ∧
      (j ≠ i → closingOf (closingApe ape j socket now) i = closingOf ape i) := by
    rw [closingOf, closingApe, List.countP_append, closing_frames]
    cases socket.callbacks.onDisconnect.isSome <;> simp +contextual [closeFrames, closingOf]
  have undialed : ∀ state, .dialed i state ∈ (closingApe ape j socket now).log → .dialed i state ∈ ape.log := by
    intro state
    cases reported : socket.callbacks.onDisconnect.isSome <;> simp [closingApe, offlineEvents, reported]
  by_cases same : j = i
  · subst same
    have there : viewOf (closingApe ape j socket now) j = some (true, socket.dnsState) := by
      rw [viewOf, closingApe, List.getElem?_modify_eq, here]
      rfl
    have unwaited : ∀ q, ¬ AwaitsLookup (closingApe ape j socket now) q j := by
      intro q waiting
      obtain ⟨waited, other⟩ := (waits q).mp waiting
      obtain ⟨state, view', held | asking⟩ := kept.held q waited
      · cases view.symm.trans view'
        exact other held
      · exact asked q asking waited
    refine tied_alone unwaited ?_ ?_ (fun _ => ⟨_, there⟩) fun state member => kept.dials state (undialed state member)
    · intro q held
      cases there.symm.trans held
    · intro q asking
      have asking' := (asks q).mp asking
      obtain ⟨params, record, arg, unfreed, valid⟩ := kept.asks q asking'
      have done : params.done = true := by
        by_contra undone
        have undone' := Bool.eq_false_of_not_eq_true undone
        exact asked q asking' ⟨params, record, arg, undone', valid undone'⟩
      have record' : (closingApe ape j socket now).queries[q]? =
          some (if socket.dnsState = some q then { params with invalidate := true } else params) := by
        rw [closingApe, invalidated_at, record, Option.map_some]
      refine ⟨_, record', ?_⟩
      split
      · exact ⟨arg, unfreed, fun undone => by cases done.symm.trans undone⟩
      · exact ⟨arg, unfreed, valid⟩
  · refine tied_rests kept (fun q => ?_) ?_ asks connects ?_ ?_ undialed
    · rw [waits, and_iff_left_iff_imp]
      intro waiting held
      rw [held] at view
      obtain ⟨params, record, arg, -⟩ := (all j).owner q view
      obtain ⟨params', record', arg', -⟩ := waiting
      cases record.symm.trans record'
      exact same (arg.symm.trans arg')
    · rw [viewOf, closingApe, List.getElem?_modify_ne _ _ same, viewOf]
    · intro q asking
      obtain ⟨params, record, arg, -⟩ := kept.asks q asking
      have other : socket.dnsState ≠ some q := by
        intro held
        rw [held] at view
        obtain ⟨params', record', arg', -⟩ := (all j).owner q view
        cases record.symm.trans record'
        exact same (arg'.symm.trans arg)
      rw [closingApe, invalidated_at, record, Option.map_some, if_neg other]
    · refine fun ends => ending_before ends ?_ id ?_
      · rw [closing same]
        exact id
      · rw [closingApe, List.getElem?_modify_ne _ _ same]
        exact id

theorem tied_close {now : Bool} (all : ∀ i, LookupTied ape i) (asked : ∀ q, .ask q j ∈ ape.frames → ¬ AwaitsLookup ape q j)
    (done : ape.apeSocketClose j now = .ok next) : LookupTied next i := by
  obtain ⟨socket, here, -, ⟨-, rfl⟩ | ⟨open_, rfl⟩⟩ := close_cases done
  · exact all i
  · exact tied_closing all here open_ asked

/-- A socket that no lookup waits for loses its `dns_state`. -/
theorem tied_unheld {f : NetSocket → NetSocket} (kept : LookupTied ape i) (unwaited : j = i → ∀ q, ¬ AwaitsLookup ape q i)
    (rests : ∀ socket, ((f socket).state = .offline ↔ socket.state = .offline) ∧ (f socket).dnsState = none ∧
      (f socket).freed = socket.freed) : LookupTied (ape.change j f) i := by
  by_cases same : j = i
  · subst same
    have unwaited := unwaited rfl
    have view : viewOf (ape.change j f) j = (viewOf ape j).map fun view => (view.1, none) := by
      rw [viewOf_change, if_pos rfl, viewOf, Option.map_map]
      congr 1
      funext socket
      simp [(rests socket).1, (rests socket).2.1]
    refine tied_alone unwaited ?_ kept.asks ?_ kept.dials
    · intro q held
      rw [view] at held
      obtain ⟨_, -, fields⟩ := Option.map_eq_some_iff.mp held
      cases (Prod.mk.inj fields).2
    · intro ends
      have before : SocketEnding ape j := by
        refine ending_before ends id id ?_
        rw [freed_change fun socket => (rests socket).2.2]
        exact id
      obtain ⟨state, offline⟩ := kept.ending before
      rw [view, offline]
      exact ⟨none, rfl⟩
  · refine tied_rests kept (fun _ => Iff.rfl) ?_ (fun _ => Iff.rfl) id (fun _ _ => rfl) ?_ fun _ => id
    · rw [viewOf_change, if_neg same]
    · refine fun ends => ending_before ends id id ?_
      rw [freed_change fun socket => (rests socket).2.2]
      exact id

theorem tied_dialing {state : SocketState} (kept : LookupTied ape i) (open_ : state ≠ .offline)
    (unwaited : j = i → ∀ q, ¬ AwaitsLookup ape q i) : LookupTied (dialingApe ape j state) i := by
  have called : LookupTied { ape with log := ape.log ++ [.dialed j state] } i := by
    refine { held := kept.held, owner := kept.owner, single := kept.single, connects := kept.connects, asks := kept.asks,
             asked := kept.asked, ending := kept.ending, dials := fun state' member => ?_ }
    rcases List.mem_append.mp member with earlier | last
    · exact kept.dials state' earlier
    · cases List.mem_singleton.mp last
      exact open_
  exact tied_unheld called unwaited fun socket => ⟨Iff.rfl, rfl, rfl⟩

/-- What comes of the rest of `ape_socket_connect_ready_to_connect`. -/
theorem tied_outcome {dialing : Option Dialing} (done : ape.readyToConnect j dialing = .ok next)
    (begun : ∀ state, stateOf ape j = some state → ∀ i, LookupTied (dialingApe ape j state) i)
    (unwaited : ∀ q, ¬ AwaitsLookup ape q j) (open_ : stateOf ape j ≠ some .offline) : LookupTied next i := by
  obtain ⟨socket, here, -, outcome⟩ := ready_cases done
  have state : stateOf ape j = some socket.state := by rw [stateOf, here, Option.map_some]
  have begins := begun socket.state state
  rcases outcome with ⟨-, closed⟩ | ⟨-, rfl⟩ | ⟨dialing, -, -, rfl⟩
  · exact tied_close begins (fun q _ => unwaited q) closed
  · exact begins i
  · have started : LookupTied (((dialingApe ape j socket.state).change j fun old => { old with
        type := .client
        state := if socket.proto = .udp then .online else .progress }).register j socket.fd dialing.accepted) i := by
      apply tied_register
      refine tied_change (begins i) ?_ fun _ other there => ?_
      · exact fun _ => rfl
      rw [dialingApe, List.getElem?_modify_eq, here] at there
      cases there
      refine ⟨iff_of_false ?_ fun offline => open_ (state.trans (congrArg some offline)), rfl⟩
      by_cases udp : socket.proto = .udp <;> simp [udp]
    exact @either_ape (LookupTied · i) _ _ _ _ (tied_dispatch started fun same => by cases same) started

theorem tied_ready {dialing : Option Dialing} (all : ∀ i, LookupTied ape i) (done : ape.readyToConnect j dialing = .ok next)
    (unwaited : ∀ q, ¬ AwaitsLookup ape q j) (open_ : stateOf ape j ≠ some .offline) : LookupTied next i := by
  apply tied_outcome done ?_ unwaited open_
  intro state here i
  apply tied_dialing (all i)
  · exact fun offline => open_ (here.trans (congrArg some offline))
  · rintro rfl
    exact unwaited

theorem tied_shutdown {waits : Bool} (all : ∀ i, LookupTied ape i)
    (asked : ∀ q, .ask q j ∈ ape.frames → ¬ AwaitsLookup ape q j) (done : ape.apeSocketShutdown j waits = .ok next) :
    LookupTied next i := by
  obtain ⟨socket, here, -, outcome⟩ := shutdown_cases done
  have shut : socket.state = .online → ∀ i, LookupTied (ape.change j ({ · with state := .shutdown })) i := by
    intro online i
    refine tied_change (all i) ?_ fun _ other there => ?_
    · exact fun _ => rfl
    cases here.symm.trans there
    simp [online]
  rcases outcome with rfl | ⟨-, closed⟩ | ⟨online, -, closed⟩ | ⟨online, -, rfl⟩
  · exact all i
  · exact tied_close all asked closed
  · exact tied_close (shut online) asked closed
  · exact tied_dispatch (shut online i) fun same => by cases same

/-- The state for a socket that is not offline, as its lookup says it is not. -/
theorem waits_open {q : Nat} (kept : LookupTied ape i) (waiting : AwaitsLookup ape q i) :
    stateOf ape i ≠ some .offline ∧ ape.sockets[i]?.all (·.freed) = false ∧ ¬ SocketEnding ape i := by
  obtain ⟨state, view, -⟩ := kept.held q waiting
  have unending : ¬ SocketEnding ape i := by
    intro ends
    obtain ⟨state', offline⟩ := kept.ending ends
    cases view.symm.trans offline
  obtain ⟨socket, here, fields⟩ := Option.map_eq_some_iff.mp view
  have open_ : socket.state ≠ .offline := of_decide_eq_false (Prod.mk.inj fields).1
  refine ⟨?_, ?_, unending⟩
  · rw [stateOf, here, Option.map_some]
    exact fun offline => open_ (Option.some.inj offline)
  · rw [here, Option.all_some]
    refine Bool.eq_false_of_not_eq_true fun dead => unending (.inr (.inr ?_))
    rw [here, Option.any_some, dead]

/-- The lookups that wait once one of them is done. -/
theorem waits_done {params : DnsQuery} {q : Nat} (record : ape.queries[q]? = some params)
    (queries : next.queries = ape.queries.modify q ({ · with done := true })) (q' : Nat) :
    AwaitsLookup next q' i ↔ AwaitsLookup ape q' i ∧ q' ≠ q := by
  rw [AwaitsLookup, queries]
  by_cases same : q' = q
  · subst same
    rw [List.getElem?_modify_eq, record]
    refine iff_of_false ?_ fun waiting => waiting.2 rfl
    rintro ⟨params', record', -, done, -⟩
    cases record'
    cases done
  · rw [List.getElem?_modify_ne _ _ (Ne.symm same)]
    exact (and_iff_left same).symm

/-- A lookup that waits is done, and its socket is dialed. -/
theorem tied_answered {q : Nat} {frames : List ApeFrame} {state : SocketState} (all : ∀ i, LookupTied ape i)
    (waiting : AwaitsLookup ape q j) (open_ : state ≠ .offline)
    (others : ∀ i, ∀ frame ∈ frames, holdsSocket i frame = false) :
    LookupTied (dialingApe (((finishedApe ape q).emit [.called q]).enter frames) j state) i := by
  have kept := all i
  obtain ⟨params, record, arg, undone, valid⟩ := waiting
  obtain ⟨asks, connects, closing⟩ := frames_hold (others i) ape.frames
  by_cases same : j = i
  · subst same
    have waiting : AwaitsLookup ape q j := ⟨params, record, arg, undone, valid⟩
    obtain ⟨-, -, unending⟩ := waits_open kept waiting
    apply tied_alone
    · intro q' waiting'
      obtain ⟨before, other⟩ := (waits_done record rfl q').mp waiting'
      exact other (kept.single q' q before waiting)
    · intro q' held
      rw [viewOf, dialingApe, List.getElem?_modify_eq] at held
      obtain ⟨socket, there, fields⟩ := Option.map_eq_some_iff.mp held
      obtain ⟨old, -, rfl⟩ := Option.map_eq_some_iff.mp there
      cases (Prod.mk.inj fields).2
    · intro q' asking
      obtain ⟨params', record', arg', unfreed, valid'⟩ := kept.asks q' ((asks q').mp asking)
      by_cases this_ : q = q'
      · subst this_
        refine ⟨{ params' with done := true }, ?_, arg', unfreed, fun undone => by cases undone⟩
        show (ape.queries.modify q _)[q]? = _
        rw [List.getElem?_modify_eq, record']
        rfl
      · refine ⟨params', ?_, arg', unfreed, valid'⟩
        show (ape.queries.modify q _)[q']? = _
        rw [List.getElem?_modify_ne _ _ this_, record']
    · intro ends
      apply absurd (?_ : SocketEnding ape j) unending
      refine ending_before ends (fun waiting => ?_) id ?_
      · rw [closingOf, ← closing]
        exact waiting
      · exact (@freed_change ape j j ({ · with dnsState := none }) fun _ => rfl).symm.trans
    · intro state' member
      rcases List.mem_append.mp member with earlier | last
      · exact kept.dials state' ((List.mem_append.mp earlier).resolve_right (by simp))
      · cases List.mem_singleton.mp last
        exact open_
  · apply tied_dialing ?_ open_ fun equal => absurd equal same
    refine tied_enter (tied_log ?_ (by simp)) (others i)
    refine tied_rests kept (fun q' => ?_) rfl (fun _ => Iff.rfl) id ?_ id fun _ => id
    · rw [waits_done record rfl, and_iff_left_iff_imp]
      rintro ⟨params', record', arg', -⟩ rfl
      cases record.symm.trans record'
      exact same (arg.symm.trans arg')
    · intro q' asking
      obtain ⟨params', record', arg', -⟩ := kept.asks q' asking
      refine List.getElem?_modify_ne _ _ ?_
      rintro rfl
      cases record.symm.trans record'
      exact same (arg.symm.trans arg')

/-- The record of a lookup that does not wait is freed. -/
theorem tied_freed {q : Nat} {f : DnsQuery → DnsQuery} {events : List ApeEvent} (kept : LookupTied ape i)
    (unasked : .ask q i ∉ ape.frames) (unwaited : ¬ AwaitsLookup ape q i)
    (rests : ∀ params, (f params).arg = params.arg ∧ (f params).invalidate = params.invalidate ∧
      (params.done = true → (f params).done = true))
    (undialed : ∀ state, .dialed i state ∉ events) :
    LookupTied { ape with queries := ape.queries.modify q f, log := ape.log ++ events } i := by
  refine @tied_log { ape with queries := ape.queries.modify q f } i events ?_ undialed
  refine tied_rests kept (fun q' => ?_) rfl (fun _ => Iff.rfl) id ?_ id fun _ => id
  · by_cases same : q = q'
    · subst same
      refine iff_of_false ?_ unwaited
      rintro ⟨params, record, arg, undone, valid⟩
      rw [List.getElem?_modify_eq] at record
      obtain ⟨old, record', rfl⟩ := Option.map_eq_some_iff.mp record
      obtain ⟨arg', valid', done'⟩ := rests old
      refine unwaited ⟨old, record', arg'.symm.trans arg, ?_, valid'.symm.trans valid⟩
      by_contra done
      cases undone.symm.trans (done' (Bool.eq_true_of_not_eq_false done))
    · rw [AwaitsLookup, List.getElem?_modify_ne _ _ same, AwaitsLookup]
  · intro q' asking
    refine List.getElem?_modify_ne _ _ ?_
    rintro rfl
    exact unasked asking

/-- A lookup that was invalidated is done, and its record is freed. -/
theorem tied_abandoned {params : DnsQuery} {q : Nat} (kept : LookupTied ape i) (record : ape.queries[q]? = some params)
    (undone : params.done = false) (invalid : params.invalidate = true) :
    LookupTied ((finishedApe ape q).paramsFree q) i := by
  have joined : (finishedApe ape q).paramsFree q =
      { ape with
        queries := ape.queries.modify q ({ · with done := true, freed := true })
        log := ape.log ++ [.paramsFree q] } := by
    rw [Ape.paramsFree, finishedApe, List.modify_modify_eq]
    rfl
  rw [joined]
  apply tied_freed kept
  · intro asking
    obtain ⟨params', record', -, -, valid⟩ := kept.asks q asking
    cases record.symm.trans record'
    cases invalid.symm.trans (valid undone)
  · rintro ⟨params', record', -, -, valid⟩
    cases record.symm.trans record'
    cases invalid.symm.trans valid
  · exact fun _ => ⟨rfl, rfl, fun _ => rfl⟩
  · simp

/-- The socket of a lookup that waits is dialed. -/
theorem tied_resolved {params : DnsQuery} {dialing : Option Dialing} {q : Nat} (all : ∀ i, LookupTied ape i)
    (record : ape.queries[q]? = some params) (undone : params.done = false) (valid : params.invalidate = false)
    (dialed : (((finishedApe ape q).emit [.called q]).enter [.answer q]).readyToConnect params.arg dialing = .ok next) :
    LookupTied next i := by
  have waiting : AwaitsLookup ape q params.arg := ⟨params, record, rfl, undone, valid⟩
  obtain ⟨open_, -, -⟩ := waits_open (all params.arg) waiting
  apply tied_outcome dialed
  · intro state here i
    apply tied_answered all waiting
    · exact fun offline => open_ (here.trans (congrArg some offline))
    · simp [holdsSocket]
  · intro q' waiting'
    obtain ⟨before, other⟩ := (waits_done record rfl q').mp waiting'
    exact other ((all params.arg).single q' q before waiting)
  · exact open_

theorem idle_unwaited (idle : ape.frames = []) : ∀ q, .ask q i ∈ ape.frames → ¬ AwaitsLookup ape q i := by
  intro q asking
  rw [idle] at asking
  cases asking

theorem asks_unwaited (unasked : asksFor ape i = false) : ∀ q, .ask q i ∈ ape.frames → ¬ AwaitsLookup ape q i := by
  rintro q asking ⟨params, record, -, undone, -⟩
  have none_asks := List.any_eq_false.mp unasked _ asking
  simp [record, undone] at none_asks

theorem awaited_waits (unawaited : isAwaited ape i = false) : ∀ q, ¬ AwaitsLookup ape q i := by
  rintro q ⟨params, record, arg, undone, valid⟩
  have waits := List.any_eq_false.mp unawaited params (List.mem_of_getElem? record)
  simp [arg, undone, valid] at waits

theorem connecting_frames (unconnected : isConnecting ape i = false) :
    (∀ q, .ask q i ∉ ape.frames) ∧ .connect i ∉ ape.frames := by
  constructor
  · intro q asking
    have asks := List.any_eq_false.mp unconnected _ asking
    simp at asks
  · intro connecting
    have connects := List.any_eq_false.mp unconnected _ connecting
    simp at connects

/-- A lookup is asked for a socket that is not being connected. -/
theorem tied_asking (kept : LookupTied ape i) (open_ : ∃ state, viewOf ape j = some (false, state))
    (unconnected : isConnecting ape j = false) (unwaited : ∀ q, ¬ AwaitsLookup ape q j) :
    LookupTied (({ ape with queries := ape.queries ++ [{ arg := j }] } : Ape).enter [.ask ape.queries.length j]) i := by
  have waits : ∀ q, AwaitsLookup
      (({ ape with queries := ape.queries ++ [{ arg := j }] } : Ape).enter [.ask ape.queries.length j]) q i ↔
      AwaitsLookup ape q i ∨ j = i ∧ q = ape.queries.length := by
    intro q
    rw [AwaitsLookup, AwaitsLookup]
    show (∃ params, (ape.queries ++ [{ arg := j }])[q]? = some params ∧ _) ↔ _
    by_cases old : q < ape.queries.length
    · rw [List.getElem?_append_left old]
      exact (or_iff_left fun new => Nat.ne_of_lt old new.2).symm
    · have absent : ape.queries[q]? = none := List.getElem?_eq_none (Nat.le_of_not_lt old)
      by_cases new : q = ape.queries.length
      · subst new
        simp
      · have still : (ape.queries ++ [{ arg := j }])[q]? = none := by
          rw [List.getElem?_eq_none]
          rw [List.length_append, List.length_singleton]
          omega
        simp [absent, still, new]
  have records : ∀ (q : Nat) params, ape.queries[q]? = some params → (ape.queries ++ [{ arg := j }])[q]? = some params := by
    intro q params record
    rw [List.getElem?_append_left (List.getElem?_eq_some_iff.mp record).1, record]
  by_cases same : j = i
  · subst same
    obtain ⟨unasked, unconnecting⟩ := connecting_frames unconnected
    have only : ∀ q, AwaitsLookup
        (({ ape with queries := ape.queries ++ [{ arg := j }] } : Ape).enter [.ask ape.queries.length j]) q j →
        q = ape.queries.length := fun q waiting => (((waits q).mp waiting).resolve_left (unwaited q)).2
    obtain ⟨state, view⟩ := open_
    refine { held := ?_, owner := ?_, single := ?_, connects := ?_, asks := ?_, asked := ?_, ending := kept.ending,
             dials := kept.dials }
    · intro q waiting
      refine ⟨state, view, .inr ?_⟩
      rw [only q waiting]
      exact List.mem_cons_self
    · exact fun q held => absurd (kept.owner q held) (unwaited q)
    · exact fun q q' first second => (only q first).trans (only q' second).symm
    · intro connecting
      exact absurd ((List.mem_cons.mp connecting).resolve_left (by simp)) unconnecting
    · intro q asking
      rcases List.mem_cons.mp asking with new | old
      · cases new
        exact ⟨{ arg := j }, List.getElem?_concat_length .., rfl, rfl, fun _ => rfl⟩
      · exact absurd old (unasked q)
    · intro q asking q' waiting
      rcases List.mem_cons.mp asking with new | old
      · cases new
        exact only q' waiting
      · exact absurd old (unasked q)
  · have asks : ∀ q, .ask q i ∈ [.ask ape.queries.length j] ++ ape.frames ↔ .ask q i ∈ ape.frames := by
      simp [Ne.symm same]
    refine tied_rests kept (fun q => ?_) rfl asks ?_ ?_ ?_ fun _ => id
    · rw [waits]
      exact or_iff_left fun new => same new.1
    · exact fun connecting => (List.mem_cons.mp connecting).resolve_left (by simp)
    · intro q asking
      obtain ⟨params, record, -⟩ := kept.asks q asking
      rw [record]
      exact records q params record
    · rintro (waiting | others)
      · exact .inl waiting
      · exact .inr others

theorem tied_connecting (kept : LookupTied ape i) (unwaited : j = i → ∀ q, ¬ AwaitsLookup ape q i) :
    LookupTied (ape.enter [.connect j]) i := by
  by_cases same : j = i
  · have unwaited := unwaited same
    refine @tied_alone (ape.enter [.connect j]) i unwaited ?_ ?_ ?_ kept.dials
    · exact fun q held => unwaited q (kept.owner q held)
    · exact fun q asking => kept.asks q ((List.mem_cons.mp asking).resolve_left ApeFrame.noConfusion)
    · rintro (waiting | others)
      · exact kept.ending (.inl waiting)
      · exact kept.ending (.inr others)
  · exact tied_enter kept (by simp [holdsSocket, same])

/-- `ares_gethostbyname` returns, and `APE_socket_connect` keeps the lookup unless it is done. -/
theorem tied_asked {q : Nat} {rest : List ApeFrame} {params : DnsQuery} (kept : LookupTied ape i)
    (frames : ape.frames = .ask q j :: rest) (record : ape.queries[q]? = some params) :
    LookupTied ((poppedApe ape rest).change j ({ · with dnsState := if params.done then none else some q })) i := by
  by_cases same : j = i
  · subst same
    have asking : .ask q j ∈ ape.frames := frames ▸ List.mem_cons_self
    have grown : ∀ frame, frame ∈ rest → frame ∈ ape.frames := fun frame member => frames ▸ List.mem_cons_of_mem _ member
    obtain ⟨params', record', arg, -, valid⟩ := kept.asks q asking
    cases record.symm.trans record'
    have view : viewOf ((poppedApe ape rest).change j ({ · with dnsState := if params.done then none else some q })) j =
        (viewOf ape j).map fun view => (view.1, if params.done then none else some q) := by
      rw [viewOf_change, if_pos rfl, viewOf, Option.map_map]
      rfl
    have only : ∀ q', AwaitsLookup ape q' j → q' = q := kept.asked q asking
    have ending :
        SocketEnding ((poppedApe ape rest).change j ({ · with dnsState := if params.done then none else some q })) j →
        ∃ state, viewOf ((poppedApe ape rest).change j ({ · with dnsState := if params.done then none else some q })) j =
          some (true, state) := by
      intro ends
      have before : SocketEnding ape j := by
        refine ending_before ends (closing_before grown) id ?_
        exact (@freed_change ape j j ({ · with dnsState := if params.done then none else some q }) fun _ => rfl).symm.trans
      obtain ⟨state, offline⟩ := kept.ending before
      rw [view, offline]
      exact ⟨_, rfl⟩
    cases done : params.done with
    | true =>
      rw [done] at view ending
      apply tied_alone
      · rintro q' waiting
        cases only q' waiting
        obtain ⟨params', record', -, undone, -⟩ := waiting
        cases record.symm.trans record'
        cases done.symm.trans undone
      · intro q' held
        rw [view] at held
        obtain ⟨_, -, fields⟩ := Option.map_eq_some_iff.mp held
        cases (Prod.mk.inj fields).2
      · exact fun q' asking' => kept.asks q' (grown _ asking')
      · exact ending
      · exact kept.dials
    | false =>
      rw [done] at view ending
      have waiting : AwaitsLookup ape q j := ⟨params, record, arg, done, valid done⟩
      refine { held := ?_, owner := ?_, single := kept.single, connects := ?_, asks := ?_, asked := ?_, ending := ending,
               dials := kept.dials }
      · intro q' waiting'
        obtain ⟨state, before, -⟩ := kept.held q waiting
        cases only q' waiting'
        rw [view, before]
        exact ⟨some q, rfl, .inl rfl⟩
      · intro q' held
        rw [view] at held
        obtain ⟨_, -, fields⟩ := Option.map_eq_some_iff.mp held
        cases (Prod.mk.inj fields).2
        exact waiting
      · exact fun connecting => absurd waiting (kept.connects (grown _ connecting) q)
      · exact fun q' asking' => kept.asks q' (grown _ asking')
      · exact fun q' asking' => kept.asked q' (grown _ asking')
  · have popped : LookupTied (poppedApe ape rest) i := tied_pop kept frames fun q' equal => same (ApeFrame.ask.inj equal).2
    refine tied_change popped ?_ fun equal => absurd equal same
    exact fun _ => rfl

theorem tied_called {set : Bool} (kept : LookupTied ape i) : LookupTied (calledApe ape j set) i := by
  rw [calledApe]
  split
  · exact tied_enter (@tied_log ape i [.onConnected j] kept (by simp)) (by simp [holdsSocket])
  · exact kept

theorem tied_accepted {server new : NetSocket} {fd : Int} {accepted : Bool} {results : List AcceptResult}
    (kept : LookupTied ape i) (unheld : new.dnsState = none) (live : new.freed = false) :
    LookupTied (acceptedApe ape j server new fd accepted results) i := by
  have client := @tied_register _ i ape.sockets.length new.fd accepted
    (@tied_log _ i [.accepted j fd ape.sockets.length] (@tied_append _ i
      [{ new with callbacks := server.callbacks, parent := some j, state := .online, type := .client }] kept
      (by simp [unheld, live])) (by simp))
  rw [acceptedApe]
  split
  · exact tied_enter (@tied_log _ i [.onConnect j ape.sockets.length] client (by simp)) (by simp [holdsSocket])
  · exact tied_enter client (by simp [holdsSocket])

/-- The callback of a close returns: the socket is offline, so that it can be freed. -/
theorem tied_closed {now : Bool} {rest : List ApeFrame} {socket : NetSocket} (kept : LookupTied ape i)
    (frames : ape.frames = .close j now :: rest) :
    LookupTied
      (let closed := ((poppedApe ape rest).emit [.close j]).withEvents (ape.events.close socket.fd).eventsDel
      if now then closed.change j ({ · with freed := true }) else closed.dispatch (.socketFree j)) i := by
  have offline : j = i → ∃ state, viewOf ape i = some (true, state) := by
    rintro rfl
    apply kept.ending
    refine .inl ?_
    rw [closingOf, frames, List.countP_cons]
    simp [isClosing]
  have popped : LookupTied (poppedApe ape rest) i := tied_pop kept frames fun _ => ApeFrame.noConfusion
  have closed : LookupTied (((poppedApe ape rest).emit [.close j]).withEvents (ape.events.close socket.fd).eventsDel) i :=
    tied_events (tied_log popped (by simp))
  dsimp only
  split
  · exact tied_free closed offline
  · exact tied_dispatch closed fun same => offline (ApeAsync.socketFree.inj same)

theorem tied_due {k : Nat} (kept : LookupTied ape i) : LookupTied (dueApe ape k) i := by
  refine @tied_rests ape _ i kept (fun _ => Iff.rfl) rfl (fun _ => Iff.rfl) id (fun _ _ => rfl) ?_ fun _ => id
  exact fun ends => ending_before ends id List.mem_of_mem_eraseIdx id

/-- The record of a lookup is freed when no function runs. -/
theorem tied_paramsFree {q : Nat} (kept : LookupTied ape i) (idle : ape.frames = []) : LookupTied (ape.paramsFree q) i := by
  have freed : LookupTied { ape with queries := ape.queries.modify q ({ · with freed := true }) } i := by
    refine tied_rests kept (fun q' => ?_) rfl (fun _ => Iff.rfl) id (fun q' asking => ?_) id fun _ => id
    · rw [AwaitsLookup, AwaitsLookup, List.getElem?_modify]
      cases record : ape.queries[q']? with
      | none => simp
      | some params => by_cases same : q = q' <;> simp [same]
    · rw [idle] at asking
      cases asking
  exact tied_log freed (by simp)

/-- The socket gets ports, and is still as it was. -/
theorem tied_ported {port localport : BitVec 16} (kept : LookupTied ape i) :
    LookupTied (portedApe ape j port localport) i := by
  refine tied_change kept ?_ fun _ _ _ => ⟨Iff.rfl, rfl⟩
  exact fun _ => rfl

/-- A socket that is connected to a port is not offline, and nothing connects it. -/
theorem well_connect {port localport : BitVec 16} {numeric : Bool} {dialing : Dialing} (asked : port ≠ 0#16)
    (well : looksUpWell ape (.connect j port localport numeric dialing) = true) :
    stateOf ape j ≠ some .offline ∧ isConnecting ape j = false ∧ ∀ q, ¬ AwaitsLookup ape q j := by
  rw [looksUpWell, if_neg asked, Bool.and_eq_true, Bool.and_eq_true, decide_eq_true_iff, Bool.not_eq_true',
    Bool.not_eq_true'] at well
  obtain ⟨⟨open_, unconnected⟩, unawaited⟩ := well
  exact ⟨open_, unconnected, awaited_waits unawaited⟩

theorem tied_step {call : ApeCall} (all : ∀ i, LookupTied ape i) (well : looksUpWell ape call = true)
    (done : ape.step call = .ok next) : ∀ i, LookupTied next i := by
  intro i
  have kept := all i
  cases ape_step_cases done with
  | new =>
    apply tied_append kept
    intro socket new
    obtain ⟨-, fd, -, rfl⟩ := new_some (Option.mem_toList.mp new)
    exact ⟨SocketState.noConfusion, rfl, rfl⟩
  | setCallbacks here =>
    refine tied_change kept ?_ fun _ _ _ => ⟨Iff.rfl, rfl⟩
    exact fun _ => rfl
  | listenNowhere here unasked => exact kept
  | listenFails here asked fails => exact tied_events (tied_log kept (by simp))
  | @listens j port bound listening accepted socket here asked succeeds =>
    have open_ : stateOf ape j ≠ some .offline := of_decide_eq_true well
    rw [stateOf, here, Option.map_some] at open_
    apply tied_register
    refine tied_log (tied_change kept ?_ fun _ other there => ?_) (by simp)
    · exact fun _ => rfl
    · cases here.symm.trans there
      exact ⟨iff_of_false SocketState.noConfusion fun offline => open_ (congrArg some offline), rfl⟩
  | connectNowhere unasked closed =>
    rw [looksUpWell, if_pos unasked] at well
    exact tied_close all (asks_unwaited (Bool.not_eq_true' _ ▸ well)) closed
  | connectUnix here asked unix dialed =>
    obtain ⟨open_, -, unwaited⟩ := well_connect asked well
    exact tied_ready (fun i => tied_ported (all i)) dialed unwaited (stateOf_ported.trans_ne open_)
  | connectAddress here asked address dialed =>
    obtain ⟨open_, -, unwaited⟩ := well_connect asked well
    refine tied_ready (fun i => tied_connecting (tied_ported (all i)) ?_) dialed unwaited (stateOf_ported.trans_ne open_)
    rintro rfl
    exact unwaited
  | @connectName j port localport numeric dialing socket here asked stream name =>
    obtain ⟨open_, unconnected, unwaited⟩ := well_connect asked well
    apply tied_asking (tied_ported kept) ?_ unconnected unwaited
    have there : (portedApe ape j port localport).sockets[j]? =
        some { socket with remotePort := port, localPort := localport } := by
      rw [portedApe, Ape.change, List.getElem?_modify_eq, here]
      rfl
    rw [stateOf, here] at open_
    refine ⟨socket.dnsState, (view_some there).trans ?_⟩
    rw [decide_eq_false fun offline => open_ (congrArg some offline)]
  | shutdown shut => exact tied_shutdown all (asks_unwaited (Bool.not_eq_true' _ ▸ well)) shut
  | shutdownNow shut => exact tied_shutdown all (asks_unwaited (Bool.not_eq_true' _ ▸ well)) shut
  | abandoned query undone invalid => exact tied_abandoned kept query undone invalid
  | resolved query undone valid dialed => exact tied_resolved all query undone valid dialed
  | ares stepped => exact tied_rests kept (fun _ => Iff.rfl) rfl (fun _ => Iff.rfl) id (fun _ _ => rfl) id fun _ => id
  | established idle here progress =>
    apply tied_called
    refine tied_log (tied_change kept ?_ fun _ other there => ?_) (by simp)
    · exact fun _ => rfl
    · cases here.symm.trans there
      simp [progress]
  | unestablished idle closed => exact tied_close all (idle_unwaited idle) closed
  | ended idle closed => exact tied_close all (idle_unwaited idle) closed
  | acceptable idle => exact tied_enter kept (by simp [holdsSocket])
  | @socketFree k j socket idle due here =>
    apply tied_free (tied_due kept)
    rintro rfl
    exact kept.ending (.inr (.inl (List.mem_of_getElem? due)))
  | socketDestroy idle due closed => exact tied_close (fun i => tied_due (all i)) (idle_unwaited idle) closed
  | socketConnected idle due here => exact tied_called (tied_due kept)
  | paramsFree idle due => exact tied_paramsFree (tied_due kept) idle
  | returned frames => exact tied_pop kept frames fun _ => ApeFrame.noConfusion
  | closes frames here => exact tied_closed kept frames
  | answered frames => exact tied_dispatch (tied_pop kept frames fun _ => ApeFrame.noConfusion) fun same => by cases same
  | asked frames record => exact tied_asked kept frames record
  | @connected j rest frames =>
    have connecting : .connect j ∈ ape.frames := frames ▸ List.mem_cons_self
    apply tied_unheld (tied_pop kept frames fun _ => ApeFrame.noConfusion)
    · rintro rfl
      exact kept.connects connecting
    · exact fun _ => ⟨Iff.rfl, rfl, rfl⟩
  | drained frames => exact tied_log (tied_pop kept frames fun _ => ApeFrame.noConfusion) (by simp)
  | interrupted frames => exact tied_enter (tied_pop kept frames fun _ => ApeFrame.noConfusion) (by simp [holdsSocket])
  | aborted frames => exact tied_pop kept frames fun _ => ApeFrame.noConfusion
  | accepted frames here opens =>
    obtain ⟨-, fd, -, rfl⟩ := new_some opens
    exact tied_accepted (tied_pop kept frames fun _ => ApeFrame.noConfusion) rfl rfl

end Parts

section Faults

variable {α β : Type} {ape : Ape} {j : Nat}

/-- No record is accessed that was freed, and no callback is called for a socket that was. -/
def AccessesLive (result : Except ApeFault α) : Prop := result ≠ .error .freedQuery ∧ result ≠ .error .calledFreed

theorem live_ok (value : α) : AccessesLive (.ok value) := by
  constructor
  · rintro ⟨⟩
  · rintro ⟨⟩

theorem live_notNow : @AccessesLive α (.error .notNow) := by
  constructor
  · rintro ⟨⟩
  · rintro ⟨⟩

theorem live_bind {result : Except ApeFault α} {rest : α → Except ApeFault β} (first : AccessesLive result)
    (second : ∀ value, result = .ok value → AccessesLive (rest value)) : AccessesLive (result.bind rest) :=
  ⟨avoids_bind first.1 fun value done => (second value done).1, avoids_bind first.2 fun value done => (second value done).2⟩

theorem live_map {result : Except ApeFault α} {rest : α → β} (first : AccessesLive result) :
    AccessesLive (result.map rest) :=
  ⟨avoids_map first.1, avoids_map first.2⟩

theorem live_socket : AccessesLive (ape.socket j) := ⟨avoids_socket (by simp), avoids_socket (by simp)⟩

theorem live_asUser {call : NetSocket → Except ApeFault Ape}
    (called : ∀ socket, ape.sockets[j]? = some socket → AccessesLive (call socket)) : AccessesLive (ape.asUser j call) :=
  ⟨avoids_asUser (by simp) fun socket here => (called socket here).1,
    avoids_asUser (by simp) fun socket here => (called socket here).2⟩

/-- The lookup of a socket that is not offline was not freed. -/
def HoldsLive (ape : Ape) (j : Nat) : Prop :=
  ∀ socket q, ape.sockets[j]? = some socket → socket.state ≠ .offline → socket.dnsState = some q →
    ∃ params, ape.queries[q]? = some params ∧ params.freed = false

theorem holds_live (kept : LookupTied ape j) (lives : ∀ q, QueryLife (accountOf ape q)) : HoldsLive ape j := by
  intro socket q here open_ held
  have view := view_some here
  rw [decide_eq_false open_, held] at view
  obtain ⟨params, record, -, undone, -⟩ := kept.owner q view
  have waiting : (accountOf ape q).record = some (false, params.freed) := by rw [accountOf, record, Option.map_some, undone]
  have holds := life_waiting (lives q) waiting
  rw [holds] at waiting
  exact ⟨params, record, (Prod.mk.inj (Option.some.inj waiting)).2.symm⟩

theorem live_close {now : Bool} (holds : HoldsLive ape j) : AccessesLive (ape.apeSocketClose j now) := by
  apply live_bind live_socket
  intro socket found
  split
  · exact live_ok _
  · rename_i open_
    apply live_map
    cases held : socket.dnsState with
    | none => exact live_ok _
    | some q =>
      obtain ⟨params, record, unfreed⟩ := holds socket q (socket_some found).1 open_ held
      simp only [Ape.apeDnsInvalidate, record, unfreed]
      exact live_ok _

/-- A socket has no lookup when it is dialed. -/
theorem live_ready {dialing : Option Dialing} : AccessesLive (ape.readyToConnect j dialing) := by
  apply live_bind live_socket
  intro socket found
  have unheld : HoldsLive ((ape.emit [.dialed j socket.state]).change j ({ · with dnsState := none })) j := by
    intro other q here _ held
    have there : (ape.sockets.modify j ({ · with dnsState := none }))[j]? = some other := here
    rw [List.getElem?_modify_eq] at there
    obtain ⟨old, -, rfl⟩ := Option.map_eq_some_iff.mp there
    cases held
  cases dialing with
  | none => exact live_close unheld
  | some dialing =>
    simp only
    split
    · exact live_ok _
    · exact live_close unheld
    · exact live_ok _

theorem live_shutdown {waits : Bool} (holds : HoldsLive ape j) : AccessesLive (ape.apeSocketShutdown j waits) := by
  apply live_bind live_socket
  intro socket found
  split
  · exact live_ok _
  · exact live_close holds
  · exact live_close holds
  · exact live_ok _
  · rename_i online
    split
    · exact live_ok _
    · rw [Ape.apeShutdown, found]
      dsimp only [Except.bind]
      rw [if_neg (by simp [online])]
      split
      · apply live_close
        intro other q here _ held
        rw [Ape.change, List.getElem?_modify_eq, (socket_some found).1] at here
        cases here
        have here := (socket_some found).1
        exact holds socket q here (by rw [online]; exact SocketState.noConfusion) held
      · exact live_ok _

theorem live_resume (all : ∀ i, LookupTied ape i) (lives : ∀ q, QueryLife (accountOf ape q)) : AccessesLive ape.resume := by
  rw [Ape.resume]
  cases frames : ape.frames with
  | nil => exact live_notNow
  | cons frame rest =>
    cases frame with
    | callback => exact live_ok _
    | close j now => exact live_map live_socket
    | answer q =>
      have answers : (accountOf ape q).answers ≠ 0 := by simp [accountOf, frames]
      have record := congrArg QueryAccount.record (life_answered (lives q) answers)
      obtain ⟨params, here, fields⟩ := Option.map_eq_some_iff.mp record
      have unfreed : params.freed = false := (Prod.mk.inj fields).2
      simp only [here, Option.all_some, unfreed]
      exact live_ok _
    | ask q j =>
      obtain ⟨params, record, -, unfreed, -⟩ := (all j).asks q (frames ▸ List.mem_cons_self)
      simp only [record, unfreed]
      exact live_map live_socket
    | connect j => exact live_map live_socket
    | accept j results =>
      cases results with
      | nil => exact live_ok _
      | cons result results =>
        cases result with
        | eintr => exact live_ok _
        | econnaborted => exact live_ok _
        | descriptor fd opened nonblocking accepted =>
          apply live_bind live_socket
          intro socket _
          split
          · constructor
            · rintro ⟨⟩
            · rintro ⟨⟩
          · exact live_ok _

theorem live_timer {k : Nat} (all : ∀ i, LookupTied ape i) (lives : ∀ q, QueryLife (accountOf ape q)) :
    AccessesLive (ape.timerPass k) := by
  rw [Ape.timerPass]
  split
  · exact live_notNow
  · rename_i async due
    cases async with
    | socketFree j => exact live_map live_socket
    | socketDestroy j =>
      have holds : HoldsLive ape j := holds_live (all j) lives
      exact live_close holds
    | socketConnected j => exact live_map live_socket
    | paramsFree q =>
      have timers : (accountOf ape q).timers ≠ 0 := Nat.ne_of_gt (List.count_pos_iff.mpr (List.mem_of_getElem? due))
      have record := congrArg QueryAccount.record (life_scheduled (lives q) timers)
      obtain ⟨params, here, fields⟩ := Option.map_eq_some_iff.mp record
      have unfreed : params.freed = false := (Prod.mk.inj fields).2
      simp only [Ape.runAsync, here, Option.all_some, unfreed]
      exact live_ok _

theorem live_resolved {q : Nat} {dialing : Option Dialing} (all : ∀ i, LookupTied ape i) :
    AccessesLive (ape.aresGethostbynameCb q dialing) := by
  rw [Ape.aresGethostbynameCb]
  split
  · exact live_notNow
  · rename_i params record
    dsimp only
    split
    · exact live_notNow
    · rename_i undone
      split
      · exact live_ok _
      · rename_i valid
        have waiting : AwaitsLookup ape q params.arg :=
          ⟨params, record, rfl, Bool.eq_false_of_not_eq_true undone, Bool.eq_false_of_not_eq_true valid⟩
        obtain ⟨-, unfreed, -⟩ := waits_open (all params.arg) waiting
        rw [if_neg (by simp [unfreed])]
        exact live_ready

theorem live_step {call : ApeCall} (all : ∀ i, LookupTied ape i) (lives : ∀ q, QueryLife (accountOf ape q)) :
    AccessesLive (ape.step call) := by
  have holds : ∀ j, HoldsLive ape j := fun j => holds_live (all j) lives
  have guarded : ∀ (allowed : Bool) (result : Except ApeFault Ape), AccessesLive result →
      AccessesLive (if allowed then result else .error .notNow) := by
    intro allowed result live
    split
    · exact live
    · exact live_notNow
  cases call with
  | new proto from_ opened nonblocking => exact guarded _ _ (live_ok _)
  | setCallbacks j callbacks => exact live_asUser fun _ _ => live_ok _
  | listen j port bound listening accepted => exact live_asUser fun _ _ => live_ok _
  | connect j port localport numeric dialing =>
    apply live_asUser
    intro socket _
    rw [Ape.apeSocketConnect]
    split
    · exact live_close (holds j)
    · dsimp only
      split
      · exact live_ready
      · split
        · exact live_ready
        · exact live_ok _
  | shutdown j waits => exact live_asUser fun _ _ => live_shutdown (holds j)
  | shutdownNow j => exact live_asUser fun _ _ => live_shutdown (holds j)
  | resolved q dialing => exact guarded _ _ (live_resolved all)
  | ares call =>
    apply guarded
    split
    · exact live_notNow
    · exact live_ok _
  | established j serror =>
    apply guarded
    apply live_bind live_socket
    intro socket _
    split
    · exact live_notNow
    · split
      · exact live_close (holds j)
      · exact live_ok _
  | ended j =>
    apply guarded
    apply live_bind live_socket
    intro socket _
    split
    · exact live_notNow
    · exact live_close (holds j)
  | acceptable j results =>
    apply guarded
    apply live_bind live_socket
    intro socket _
    split
    · exact live_ok _
    · exact live_notNow
  | timer k => exact guarded _ _ (live_timer all lives)
  | resume => exact live_resume all lives

end Faults

section Runs

variable {ape next : Ape} {call : ApeCall}

/-- Each record is freed once, after its callback was called at most once, and no socket is dialed that is closed. -/
structure LookupsFine (ape : Ape) : Prop where
  called : ∀ q, ape.log.count (.called q) ≤ 1
  freed : ∀ q, ape.log.count (.paramsFree q) ≤ 1
  frees : ∀ q params, ape.queries[q]? = some params → params.done = true →
    ape.frames.count (.answer q) + ape.timers.count (.paramsFree q) + ape.log.count (.paramsFree q) = 1
  dialed : ∀ i state, .dialed i state ∈ ape.log → state ≠ .offline

theorem lookups_fine (all : ∀ i, LookupTied ape i) (lives : ∀ q, QueryLife (accountOf ape q)) : LookupsFine ape where
  called q := (life_once (lives q)).2
  freed q := (life_once (lives q)).1
  frees q params record done := by
    have finished : (accountOf ape q).record = some (true, params.freed) := by rw [accountOf, record, Option.map_some, done]
    exact life_ends (lives q) finished
  dialed i := (all i).dials

theorem tied_starts (i : Nat) : LookupTied {} i := by
  apply tied_alone
  · rintro q ⟨params, record, -⟩
    cases record
  · intro q held
    cases held
  · intro q asking
    cases asking
  · rintro (waiting | timed | dead)
    · exact absurd rfl waiting
    · cases timed
    · cases dead
  · intro state member
    cases member

/-- In a run whose calls look up well, the lookups are fine and no record is accessed once it was freed. -/
theorem lookups_end (calls : List ApeCall) (each : EachStep Ape.step {} calls fun ape call => looksUpWell ape call = true) :
    Throughout Ape.step {} calls LookupsFine ∧
      EachStep Ape.step {} calls fun ape call =>
        ape.step call ≠ .error .freedQuery ∧ ape.step call ≠ .error .calledFreed := by
  have keeps : ∀ ape call next, (∀ i, LookupTied ape i ∧ QueryLife (accountOf ape i)) → looksUpWell ape call = true →
      ape.step call = .ok next → ∀ i, LookupTied next i ∧ QueryLife (accountOf next i) := by
    intro ape call next kept well done i
    exact ⟨tied_step (fun i => (kept i).1) well done i, life_step (kept i).2 done⟩
  have kept : Throughout Ape.step {} calls fun ape => ∀ i, LookupTied ape i ∧ QueryLife (accountOf ape i) :=
    throughout_of_each (fun i => ⟨tied_starts i, .unasked⟩) keeps each
  constructor
  · intro before after ape split reached
    have fine := kept before after ape split reached
    exact lookups_fine (fun i => (fine i).1) fun q => (fine q).2
  · intro before call after ape split reached
    have fine := kept before (call :: after) ape split reached
    exact live_step (fun i => (fine i).1) fun q => (fine q).2

/-- A socket is connected to another name while a name is looked up for it, and shut down. -/
def connectedTwice : List ApeCall :=
  [.new .tcp 0 (some 5) true, .connect 0 80#16 0#16 false {}, .resume, .connect 0 80#16 0#16 false {}, .resume,
    .shutdownNow 0, .resume, .resolved 0 (some {})]

theorem dialed_closed :
    ∃ ape, runAll Ape.step {} connectedTwice = .ok ape ∧ .dialed 0 .offline ∈ ape.log ∧ ¬ LookupsFine ape := by
  refine ⟨_, rfl, by decide, fun fine => ?_⟩
  exact fine.dialed 0 .offline (by decide) rfl

/-- After that, the timer frees the socket, and the callback would be called for it. -/
example : runAll Ape.step {} (connectedTwice.take 7 ++ [.timer 0, .resolved 0 (some {})]) = .error .calledFreed := rfl

/-- A lookup that ends after its socket, and another that ends at once. -/
def endedLookups : List ApeCall :=
  [.new .tcp 0 (some 5) true, .new .tcp 0 (some 6) true, .connect 0 80#16 0#16 false {}, .resume,
    .connect 1 80#16 0#16 false {}, .resolved 1 none, .resume, .resume, .resume, .shutdownNow 0, .resume, .timer 0,
    .resolved 0 (some {}), .timer 0]

theorem ended_lookups :
    Throughout Ape.step {} endedLookups LookupsFine ∧
      EachStep Ape.step {} endedLookups fun ape call =>
        ape.step call ≠ .error .freedQuery ∧ ape.step call ≠ .error .calledFreed :=
  lookups_end _ (each_of_check rfl)

end Runs

end ZapeProof
