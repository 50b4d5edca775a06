import Zape.Events.Rounds

/-! `ape_event_kqueue.c`, and `ape_events.c` over each of its back-ends. -/
namespace ZapeModel

open Machine

/-- `EVFILT_READ` and `EVFILT_WRITE`. -/
inductive KqueueFilter
  | read
  | write
  deriving DecidableEq, Repr

/-- `struct kevent` as the kernel keeps it; `clear` is `EV_CLEAR`. -/
structure Kevent where
  ident : BitVec 32
  filter : KqueueFilter
  clear : Bool
  udata : EventDescriptor
  deriving DecidableEq, Repr

/-- `struct _fdevent` with `kqueue`: what the kernel watches for it. -/
structure KqueueFdevent where
  kevents : List Kevent := []

def KqueueFilter.bit : KqueueFilter → BitVec 32
  | .read => eventRead
  | .write => eventWrite

namespace KqueueFdevent

/-- `EV_DELETE`, whose failure nobody looks at. -/
def delete (ev : KqueueFdevent) (ident : BitVec 32) (filter : KqueueFilter) : KqueueFdevent :=
  { kevents := ev.kevents.filter fun kev => ¬(kev.ident = ident ∧ kev.filter = filter) }

/-- `EV_ADD`, which changes an event that is there already. -/
def add (ev : KqueueFdevent) (kev : Kevent) : KqueueFdevent :=
  { kevents := (ev.delete kev.ident kev.filter).kevents ++ [kev] }

/-- The part of `event_kqueue_add` that is about one filter. -/
def change (ev : KqueueFdevent) (fd : BitVec 32) (evd : EventDescriptor) (bitadd : BitVec 32) (filter : KqueueFilter)
    (accepted : Bool) : KqueueFdevent × Int :=
  if bitadd &&& filter.bit ≠ 0#32 then
    if accepted then (ev.add { ident := fd, filter, clear := bitadd &&& eventLevel = 0#32, udata := evd }, 1) else (ev, -1)
  else (ev.delete fd filter, 1)

def eventKqueueAdd (ev : KqueueFdevent) (fd : BitVec 32) (evd : EventDescriptor) (bitadd : BitVec 32)
    (accepted : KqueueFilter → Bool) : KqueueFdevent × Int :=
  let read := ev.change fd evd bitadd .read (accepted .read)
  if read.2 = -1 then read else read.1.change fd evd bitadd .write (accepted .write)

def eventKqueueMod (ev : KqueueFdevent) (fd : BitVec 32) (evd : EventDescriptor) (bitadd : BitVec 32)
    (accepted : KqueueFilter → Bool) : KqueueFdevent × Int :=
  ev.eventKqueueAdd fd evd bitadd accepted

/-- `close`: the events of the descriptor are gone. -/
def close (ev : KqueueFdevent) (fd : BitVec 32) : KqueueFdevent :=
  { kevents := ev.kevents.filter fun kev => kev.ident ≠ fd }

end KqueueFdevent

def eventKqueueRevent (kev : Kevent) : BitVec 32 := kev.filter.bit

/-- One `struct _fdevent` for each back-end. -/
structure Backends where
  epoll : Fdevent := {}
  kqueue : KqueueFdevent := {}
  select : SelectFdevent := eventSelectInit

/-- A call of `ape_events.c`, after `close` where a descriptor goes away, or a call of the loop that changes the records of
    `select`. The kernel accepts what it is asked for. -/
inductive WatchCall
  | add (fd : BitVec 32) (evd : EventDescriptor) (bitadd : BitVec 32)
  | mod (fd : BitVec 32) (evd : EventDescriptor) (bitadd : BitVec 32)
  | del (fd : BitVec 32)
  | poll (reply : SelectReply)
  | revent (i : Nat)

def WatchCall.selectCall : WatchCall → SelectCall
  | .add fd evd bitadd => .op (.add fd evd bitadd)
  | .mod fd _ bitadd => .op (.mod fd bitadd)
  | .del fd => .op (.del fd)
  | .poll reply => .poll reply
  | .revent i => .revent i

def WatchCall.epollCall (ev : Fdevent) : WatchCall → Fdevent
  | .add fd evd bitadd => (ev.eventsAdd fd.toInt evd bitadd true).1
  | .mod fd evd bitadd => (ev.eventsMod fd.toInt evd bitadd true).1
  | .del fd => (ev.close fd.toInt).eventsDel
  | .poll _ | .revent _ => ev

def WatchCall.kqueueCall (ev : KqueueFdevent) : WatchCall → KqueueFdevent
  | .add fd evd bitadd => (ev.eventKqueueAdd fd evd bitadd fun _ => true).1
  | .mod fd evd bitadd => (ev.eventKqueueMod fd evd bitadd fun _ => true).1
  | .del fd => ev.close fd
  | .poll _ | .revent _ => ev

/-- The same call with each back-end. -/
def Backends.step (fdSetsize : Nat) (backends : Backends) (call : WatchCall) : Except SelectFault Backends :=
  (call.selectCall.step fdSetsize backends.select).map fun select =>
    { epoll := call.epollCall backends.epoll, kqueue := call.kqueueCall backends.kqueue, select }

/-- What `epoll_wait` reports of a descriptor, as `event_epoll_get_evd` and `event_epoll_revent` tell it. -/
def Fdevent.reports (ev : Fdevent) (readable writable : Nat → Bool) (fd : BitVec 32) : List (EventDescriptor × BitVec 32) :=
  let ready := (if readable fd.toNat then epollin else 0#32) ||| (if writable fd.toNat then epollout else 0#32)
  let found := ev.interests.filter fun interest => interest.fd = fd.toInt ∧ Fdevent.reported interest ready ≠ 0#32
  found.map fun interest => (interest.evd, eventEpollRevent (Fdevent.reported interest ready))

def Kevent.ready (readable writable : Nat → Bool) (kev : Kevent) : Bool :=
  match kev.filter with
  | .read => readable kev.ident.toNat
  | .write => writable kev.ident.toNat

/-- What `kevent` reports of a descriptor, one filter an event. -/
def KqueueFdevent.reports (ev : KqueueFdevent) (readable writable : Nat → Bool) (fd : BitVec 32) :
    List (EventDescriptor × BitVec 32) :=
  (ev.kevents.filter fun kev => kev.ident = fd ∧ kev.ready readable writable).map fun kev =>
    (kev.udata, eventKqueueRevent kev)

end ZapeModel

namespace ZapeProof

open Machine ZapeModel

def keventsOf (ev : KqueueFdevent) (fd : BitVec 32) : List Kevent := ev.kevents.filter (·.ident = fd)

namespace Registration

def asks (registration : Registration) (filter : KqueueFilter) : Bool := registration.bitadd &&& filter.bit ≠ 0#32

def kevent (registration : Registration) (fd : BitVec 32) (filter : KqueueFilter) : Kevent :=
  { ident := fd, filter, clear := registration.bitadd &&& eventLevel = 0#32, udata := registration.evd }

/-- The event of one filter, if it was asked for. -/
def wanted (registration : Registration) (fd : BitVec 32) (filter : KqueueFilter) : List Kevent :=
  if registration.asks filter then [registration.kevent fd filter] else []

def interest (registration : Registration) (fd : BitVec 32) : Interest :=
  { fd := fd.toInt, evd := registration.evd, events := Fdevent.epollEvents registration.bitadd }

end Registration

/-- The registry after a call. -/
def watchRegistry (fdSetsize : Nat) (registry : Registry) (call : WatchCall) : Registry :=
  callRegistry fdSetsize registry call.selectCall

/-- What each of the back-ends relies on: a descriptor is added if it is not watched, and is within the sets of `select`;
    it is modified if it is watched, and with its own record. -/
def KeepsOrder (fdSetsize : Nat) (registry : Registry) : WatchCall → Prop
  | .add fd _ _ => registry fd = none ∧ 0 ≤ fd.toInt ∧ fd.toInt < fdSetsize
  | .mod fd evd _ => (registry fd).map (·.evd) = some evd
  | .del _ | .poll _ | .revent _ => True

def WatchesInOrder (fdSetsize : Nat) (registry : Registry) : List WatchCall → Prop
  | [] => True
  | call :: calls => KeepsOrder fdSetsize registry call ∧ WatchesInOrder fdSetsize (watchRegistry fdSetsize registry call) calls

section Kevents

variable {ev : KqueueFdevent} {fd other : BitVec 32} {evd : EventDescriptor} {bitadd : BitVec 32}

theorem keventsOf_delete (filter : KqueueFilter) :
    keventsOf (ev.delete fd filter) other =
      if other = fd then (keventsOf ev fd).filter (·.filter ≠ filter) else keventsOf ev other := by
  rw [keventsOf, KqueueFdevent.delete, List.filter_filter]
  split
  · rename_i same
    rw [keventsOf, List.filter_filter, same]
    apply List.filter_congr
    intro kev _
    by_cases here : kev.ident = fd <;> simp [here]
  · rename_i apart
    apply List.filter_congr
    intro kev _
    by_cases here : kev.ident = other
    · simp [here, apart]
    · simp [here]

theorem keventsOf_add (kev : Kevent) :
    keventsOf (ev.add kev) other =
      if other = kev.ident then (keventsOf ev kev.ident).filter (·.filter ≠ kev.filter) ++ [kev]
      else keventsOf ev other := by
  have deleted := @keventsOf_delete ev kev.ident other kev.filter
  rw [keventsOf] at deleted ⊢
  rw [KqueueFdevent.add, List.filter_append, deleted]
  split
  · rename_i same
    rw [List.filter_cons_of_pos (by simp [same]), List.filter_nil]
  · rename_i apart
    rw [List.filter_cons_of_neg (by simp [Ne.symm apart]), List.filter_nil, List.append_nil]

theorem keventsOf_close : keventsOf (ev.close fd) other = if other = fd then [] else keventsOf ev other := by
  rw [keventsOf, KqueueFdevent.close, List.filter_filter]
  split
  · rename_i same
    rw [List.filter_eq_nil_iff]
    intro kev _
    simp [same]
  · rename_i apart
    apply List.filter_congr
    intro kev _
    by_cases here : kev.ident = other
    · simp [here, apart]
    · simp [here]

theorem keventsOf_change (filter : KqueueFilter) :
    (ev.change fd evd bitadd filter true).2 = 1 ∧
      keventsOf (ev.change fd evd bitadd filter true).1 other =
        if other = fd then
          (keventsOf ev fd).filter (·.filter ≠ filter) ++ ({ evd, bitadd } : Registration).wanted fd filter
        else keventsOf ev other := by
  unfold KqueueFdevent.change
  by_cases asked : bitadd &&& filter.bit ≠ 0#32
  · have wanted : ({ evd, bitadd } : Registration).wanted fd filter =
        [{ ident := fd, filter, clear := bitadd &&& eventLevel = 0#32, udata := evd }] :=
      if_pos (decide_eq_true asked)
    rw [if_pos asked, if_pos rfl, wanted]
    exact ⟨rfl, keventsOf_add _⟩
  · have wanted : ({ evd, bitadd } : Registration).wanted fd filter = [] :=
      if_neg fun asks => asked (of_decide_eq_true asks)
    rw [if_neg asked, wanted, List.append_nil]
    exact ⟨rfl, keventsOf_delete filter⟩

/-- Whatever was watched before, the descriptor is watched for what it is added for. -/
theorem keventsOf_eventKqueueAdd :
    keventsOf (ev.eventKqueueAdd fd evd bitadd fun _ => true).1 other =
      if other = fd then
        ({ evd, bitadd } : Registration).wanted fd .read ++ ({ evd, bitadd } : Registration).wanted fd .write
      else keventsOf ev other := by
  obtain ⟨went, read⟩ := @keventsOf_change ev fd fd evd bitadd .read
  obtain ⟨-, read_other⟩ := @keventsOf_change ev fd other evd bitadd .read
  unfold KqueueFdevent.eventKqueueAdd
  dsimp only
  rw [went, if_neg (by decide), (keventsOf_change .write).2]
  split
  · rw [read, if_pos rfl, List.filter_append, List.filter_filter]
    have neither : (keventsOf ev fd).filter (fun kev => decide (kev.filter ≠ .write) && decide (kev.filter ≠ .read)) = [] := by
      rw [List.filter_eq_nil_iff]
      intro kev _
      cases kev.filter <;> decide
    have kept : (({ evd, bitadd } : Registration).wanted fd .read).filter (·.filter ≠ .write) =
        ({ evd, bitadd } : Registration).wanted fd .read := by
      rw [List.filter_eq_self]
      intro kev member
      unfold Registration.wanted at member
      split at member
      · cases List.mem_singleton.mp member
        rfl
      · cases member
    rw [neither, kept, List.nil_append]
  · rename_i apart
    rw [read_other, if_neg apart]

end Kevents

/-- Each back-end watches what is registered. -/
structure Agreeing (fdSetsize : Nat) (backends : Backends) (registry : Registry) (records : BitVec 32 → Option Nat) :
    Prop where
  epoll : ∀ fd : BitVec 32, interestsOf backends.epoll fd.toInt = (registry fd).toList.map fun registration =>
    registration.interest fd
  kqueue : ∀ fd, keventsOf backends.kqueue fd = (registry fd).toList.flatMap fun registration =>
    registration.wanted fd .read ++ registration.wanted fd .write
  select : Registers fdSetsize backends.select registry records
  live : Live backends.select records
  low : ∀ fd registration, registry fd = some registration → 0 ≤ fd.toInt ∧ fd.toInt < fdSetsize

section Steps

variable {fdSetsize : Nat} {backends next : Backends} {registry : Registry} {records : BitVec 32 → Option Nat}
  {call : WatchCall}

theorem agreeing_init : Agreeing fdSetsize {} (fun _ => none) fun _ => none where
  epoll := fun fd => rfl
  kqueue := fun fd => rfl
  select := registers_init
  live := fun fd address record => by cases record
  low := fun fd registration registered => by cases registered

theorem accepts_within {fd : BitVec 32} (positive : 0 ≤ fd.toInt) (low : fd.toInt < fdSetsize) :
    acceptsFd fdSetsize fd = true := decide_eq_true ⟨positive, low.le⟩

theorem watchRegistry_add {fd : BitVec 32} {evd : EventDescriptor} {bitadd : BitVec 32}
    (order : KeepsOrder fdSetsize registry (.add fd evd bitadd)) :
    watchRegistry fdSetsize registry (.add fd evd bitadd) = Function.update registry fd (some { evd, bitadd }) :=
  if_pos (accepts_within order.2.1 order.2.2)

theorem watchRegistry_mod {fd : BitVec 32} {evd : EventDescriptor} {bitadd : BitVec 32}
    (order : KeepsOrder fdSetsize registry (.mod fd evd bitadd)) :
    watchRegistry fdSetsize registry (.mod fd evd bitadd) = Function.update registry fd (some { evd, bitadd }) := by
  obtain ⟨registration, registered, rfl⟩ := Option.map_eq_some_iff.mp order
  show Function.update registry fd ((registry fd).map _) = _
  rw [registered]
  rfl

theorem interestsOf_added {ev : Fdevent} {fd other : BitVec 32} {evd : EventDescriptor} {bitadd : BitVec 32}
    (unwatched : interestsOf ev fd.toInt = []) :
    interestsOf (ev.eventsAdd fd.toInt evd bitadd true).1 other.toInt =
      if other = fd then [({ evd, bitadd } : Registration).interest fd] else interestsOf ev other.toInt := by
  have idle : ev.watches fd.toInt = false := by
    by_contra watched
    exact watches_iff.mp (Bool.not_eq_false _ |>.mp watched) unwatched
  rw [interestsOf_add]
  by_cases same : other = fd
  · rw [if_pos same, same, unwatched, if_neg (by simp [idle])]
    rfl
  · rw [if_neg same, if_pos (.inr (.inr fun equal => same (BitVec.toInt_inj.mp equal)))]

theorem interestsOf_modified {ev : Fdevent} {fd other : BitVec 32} {evd : EventDescriptor} {bitadd : BitVec 32}
    {interest : Interest} (watched : interestsOf ev fd.toInt = [interest]) :
    interestsOf (ev.eventsMod fd.toInt evd bitadd true).1 other.toInt =
      if other = fd then [({ evd, bitadd } : Registration).interest fd] else interestsOf ev other.toInt := by
  have held : ev.watches fd.toInt = true := watches_iff.mpr (by simp [watched])
  rw [interestsOf_mod]
  by_cases same : other = fd
  · rw [if_pos same, same, watched, if_neg (by simp [held])]
    rfl
  · rw [if_neg same, if_pos (.inr (.inr fun equal => same (BitVec.toInt_inj.mp equal)))]

/-- A descriptor is watched for what it was given last, and the others as before. -/
theorem epoll_step (agreeing : Agreeing fdSetsize backends registry records) (order : KeepsOrder fdSetsize registry call)
    (fd : BitVec 32) :
    interestsOf (call.epollCall backends.epoll) fd.toInt =
      (watchRegistry fdSetsize registry call fd).toList.map fun registration => registration.interest fd := by
  cases call with
  | add other evd bitadd =>
    have unwatched : interestsOf backends.epoll other.toInt = [] := by
      rw [agreeing.epoll, order.1]
      rfl
    rw [watchRegistry_add order, WatchCall.epollCall, interestsOf_added unwatched]
    by_cases same : fd = other
    · rw [if_pos same, same, Function.update_self]
      rfl
    · rw [if_neg same, Function.update_of_ne same]
      exact agreeing.epoll fd
  | mod other evd bitadd =>
    obtain ⟨registration, registered, -⟩ := Option.map_eq_some_iff.mp order
    have watched : interestsOf backends.epoll other.toInt = [registration.interest other] := by
      rw [agreeing.epoll, registered]
      rfl
    rw [watchRegistry_mod order, WatchCall.epollCall, interestsOf_modified watched]
    by_cases same : fd = other
    · rw [if_pos same, same, Function.update_self]
      rfl
    · rw [if_neg same, Function.update_of_ne same]
      exact agreeing.epoll fd
  | del other =>
    show interestsOf (backends.epoll.close other.toInt).eventsDel fd.toInt =
      (Function.update registry other none fd).toList.map _
    rw [interestsOf_del, interestsOf_close]
    by_cases same : fd = other
    · rw [if_pos (congrArg BitVec.toInt same), same, Function.update_self]
      rfl
    · rw [if_neg fun equal => same (BitVec.toInt_inj.mp equal), Function.update_of_ne same]
      exact agreeing.epoll fd
  | poll reply => exact agreeing.epoll fd
  | revent i => exact agreeing.epoll fd

theorem kqueue_step (agreeing : Agreeing fdSetsize backends registry records) (order : KeepsOrder fdSetsize registry call)
    (fd : BitVec 32) :
    keventsOf (call.kqueueCall backends.kqueue) fd =
      (watchRegistry fdSetsize registry call fd).toList.flatMap fun registration =>
        registration.wanted fd .read ++ registration.wanted fd .write := by
  cases call with
  | add other evd bitadd =>
    rw [watchRegistry_add order, WatchCall.kqueueCall, keventsOf_eventKqueueAdd]
    by_cases same : fd = other
    · rw [if_pos same, same, Function.update_self]
      exact (List.append_nil _).symm
    · rw [if_neg same, Function.update_of_ne same]
      exact agreeing.kqueue fd
  | mod other evd bitadd =>
    rw [watchRegistry_mod order, WatchCall.kqueueCall, KqueueFdevent.eventKqueueMod, keventsOf_eventKqueueAdd]
    by_cases same : fd = other
    · rw [if_pos same, same, Function.update_self]
      exact (List.append_nil _).symm
    · rw [if_neg same, Function.update_of_ne same]
      exact agreeing.kqueue fd
  | del other =>
    show keventsOf (backends.kqueue.close other) fd = (Function.update registry other none fd).toList.flatMap _
    rw [keventsOf_close]
    by_cases same : fd = other
    · rw [if_pos same, same, Function.update_self]
      rfl
    · rw [if_neg same, Function.update_of_ne same]
      exact agreeing.kqueue fd
  | poll reply => exact agreeing.kqueue fd
  | revent i => exact agreeing.kqueue fd

theorem low_step (agreeing : Agreeing fdSetsize backends registry records) (order : KeepsOrder fdSetsize registry call)
    {fd : BitVec 32} {registration : Registration}
    (registered : watchRegistry fdSetsize registry call fd = some registration) :
    0 ≤ fd.toInt ∧ fd.toInt < fdSetsize := by
  cases call with
  | add other evd bitadd =>
    rw [watchRegistry_add order] at registered
    by_cases same : fd = other
    · rw [same]
      exact order.2
    · rw [Function.update_of_ne same] at registered
      exact agreeing.low fd registration registered
  | mod other evd bitadd =>
    rw [watchRegistry_mod order] at registered
    by_cases same : fd = other
    · obtain ⟨before, held, -⟩ := Option.map_eq_some_iff.mp order
      rw [same]
      exact agreeing.low other before held
    · rw [Function.update_of_ne same] at registered
      exact agreeing.low fd registration registered
  | del other =>
    by_cases same : fd = other
    · have gone : watchRegistry fdSetsize registry (.del other) fd = none := by
        rw [same]
        exact Function.update_self ..
      cases gone.symm.trans registered
    · exact agreeing.low fd registration ((Function.update_of_ne same _ _).symm.trans registered)
  | poll reply => exact agreeing.low fd registration registered
  | revent i => exact agreeing.low fd registration registered

theorem agreeing_step (int : fdSetsize < 2 ^ 31) (agreeing : Agreeing fdSetsize backends registry records)
    (order : KeepsOrder fdSetsize registry call) (stepped : backends.step fdSetsize call = .ok next) :
    ∃ records', Agreeing fdSetsize next (watchRegistry fdSetsize registry call) records' := by
  obtain ⟨select, selected, rfl⟩ := returned_map stepped
  have new : NewDescriptor registry call.selectCall := by
    cases call with
    | add fd evd bitadd => exact order.1
    | mod | del | poll | revent => trivial
  obtain ⟨records', registers, live⟩ := call_registers int agreeing.select agreeing.live new selected
  exact ⟨records', { epoll := epoll_step agreeing order, kqueue := kqueue_step agreeing order, select := registers,
                     live := live, low := fun _ _ => low_step agreeing order }⟩

theorem agreeing_run (int : fdSetsize < 2 ^ 31) {calls : List WatchCall} {last : Backends}
    (agreeing : Agreeing fdSetsize backends registry records) (orders : WatchesInOrder fdSetsize registry calls)
    (reached : runAll (Backends.step fdSetsize) backends calls = .ok last) :
    ∃ records', Agreeing fdSetsize last (calls.foldl (watchRegistry fdSetsize) registry) records' := by
  induction calls generalizing backends registry records with
  | nil =>
    cases reached
    exact ⟨records, agreeing⟩
  | cons call calls ih =>
    obtain ⟨next, stepped, rest⟩ := runAll_first reached
    obtain ⟨records', still⟩ := agreeing_step int agreeing orders.1 stepped
    exact ih still orders.2 rest

end Steps

section Reports

variable {fdSetsize : Nat} {backends : Backends} {registry : Registry} {records : BitVec 32 → Option Nat}
  {readable writable : Nat → Bool}

/-- The bits of `epoll` for what was asked for and what a descriptor is ready for. -/
theorem epoll_bits : ∀ level read write readable writable : Bool,
    let events := (if level then 0#32 else epollet) ||| epollpri ||| (if read then epollin else 0#32) |||
      (if write then epollout else 0#32)
    let ready := (if readable then epollin else 0#32) ||| (if writable then epollout else 0#32)
    (events &&& ready ≠ 0#32 ↔ (read && readable || write && writable) = true) ∧
      eventEpollRevent (events &&& ready) =
        (if read && readable then eventRead else 0#32) ||| (if write && writable then eventWrite else 0#32) := by
  decide

theorem interest_bits (registration : Registration) (fd : BitVec 32) (registered : registry fd = some registration) :
    let ready := (if readable fd.toNat then epollin else 0#32) ||| (if writable fd.toNat then epollout else 0#32)
    (Fdevent.reported (registration.interest fd) ready ≠ 0#32 ↔ isReported registry readable writable fd = true) ∧
      eventEpollRevent (Fdevent.reported (registration.interest fd) ready) = readyFor registry readable writable fd := by
  intro ready
  have events : (registration.interest fd).events =
      (if decide (registration.bitadd &&& eventLevel ≠ 0#32) then 0#32 else epollet) ||| epollpri |||
        (if registration.asksRead then epollin else 0#32) ||| (if registration.asksWrite then epollout else 0#32) := by
    simp [Registration.interest, Fdevent.epollEvents, Registration.asksRead, Registration.asksWrite]
  have bits := epoll_bits (decide (registration.bitadd &&& eventLevel ≠ 0#32)) registration.asksRead
    registration.asksWrite (readable fd.toNat) (writable fd.toNat)
  dsimp only at bits
  rw [← events] at bits
  simp only [isReported, readyFor, readyRead, readyWrite, readAsked, writeAsked, registered, Option.any_some]
  exact bits

/-- Of a list with all of the events of a descriptor, those that hold. -/
theorem filter_own {α : Type} {items : List α} {own : α → Prop} {holds : α → Prop} [DecidablePred own]
    [DecidablePred holds] :
    items.filter (fun item => decide (own item ∧ holds item)) =
      (items.filter fun item => decide (own item)).filter fun item => decide (holds item) := by
  rw [List.filter_filter]
  apply List.filter_congr
  intro item _
  rw [Bool.decide_and, Bool.and_comm]

theorem epoll_reports (agreeing : Agreeing fdSetsize backends registry records) (fd : BitVec 32) :
    backends.epoll.reports readable writable fd =
      if isReported registry readable writable fd then
        (registry fd).toList.map fun registration => (registration.evd, readyFor registry readable writable fd)
      else [] := by
  have own := agreeing.epoll fd
  rw [interestsOf] at own
  unfold Fdevent.reports
  dsimp only
  rw [filter_own, own]
  rcases registered : registry fd with _ | registration
  · simp
  · obtain ⟨isReported, bits⟩ := @interest_bits registry readable writable registration fd registered
    rw [Option.toList_some, List.map_singleton, List.map_singleton]
    simp only [List.filter_cons, List.filter_nil, decide_eq_true_eq, isReported]
    by_cases reported : ZapeProof.isReported registry readable writable fd = true
    · rw [if_pos reported, if_pos reported, List.map_singleton, bits]
      rfl
    · rw [if_neg reported, if_neg reported]
      rfl

/-- An event of one filter, if it was asked for and the descriptor is ready for it. -/
theorem wanted_ready (registration : Registration) (fd : BitVec 32) (filter : KqueueFilter) :
    ((registration.wanted fd filter).filter fun kev => decide (kev.ready readable writable)).map
        (fun kev => (kev.udata, eventKqueueRevent kev)) =
      if registration.asks filter && (registration.kevent fd filter).ready readable writable then
        [(registration.evd, filter.bit)]
      else [] := by
  unfold Registration.wanted
  by_cases asks : registration.asks filter = true
  · rw [if_pos asks, asks, Bool.true_and]
    rw [List.filter_cons, List.filter_nil, Bool.decide_eq_true]
    split
    · rfl
    · rfl
  · rw [if_neg asks, if_neg (by simp [asks])]
    rfl

theorem kqueue_reports (agreeing : Agreeing fdSetsize backends registry records) (fd : BitVec 32) :
    backends.kqueue.reports readable writable fd = (registry fd).toList.flatMap fun registration =>
      (if readyRead registry readable fd then [(registration.evd, eventRead)] else []) ++
        (if readyWrite registry writable fd then [(registration.evd, eventWrite)] else []) := by
  have own := agreeing.kqueue fd
  rw [keventsOf] at own
  unfold KqueueFdevent.reports
  rw [filter_own, own]
  rcases registered : registry fd with _ | registration
  · rfl
  · rw [Option.toList_some, List.flatMap_singleton, List.flatMap_singleton, List.filter_append, List.map_append,
      wanted_ready, wanted_ready]
    simp only [readyRead, readyWrite, readAsked, writeAsked, registered, Option.any_some]
    rfl

theorem asked_registered {fd : BitVec 32} (asks : asked registry fd = true) :
    ∃ registration, registry fd = some registration := by
  rcases registered : registry fd with _ | registration
  · rw [asked, readAsked, writeAsked, registered] at asks
    cases asks
  · exact ⟨registration, rfl⟩

/-- A number that the sets of `select` hold is no negative one. -/
theorem agreeing_low (agreeing : Agreeing fdSetsize backends registry records) {fd : BitVec 32}
    (asks : asked registry fd = true) : fd.toNat < fdSetsize := by
  obtain ⟨registration, registered⟩ := asked_registered asks
  obtain ⟨positive, below⟩ := agreeing.low fd registration registered
  rw [BitVec.toInt_eq_toNat_cond] at positive below
  split at below
  · omega
  · omega

/-- What a poll with each back-end tells: with `epoll` what a descriptor was registered for and is ready for, in one event;
    with `kqueue` the same in an event for each filter; with `select` the same for all of them in one list. -/
structure TellsAlike (fdSetsize : Nat) (registry : Registry) (backends : Backends) (readable writable : Nat → Bool) :
    Prop where
  epoll : ∀ fd, backends.epoll.reports readable writable fd =
    if isReported registry readable writable fd then
      (registry fd).toList.map fun registration => (registration.evd, readyFor registry readable writable fd)
    else []
  kqueue : ∀ fd, backends.kqueue.reports readable writable fd = (registry fd).toList.flatMap fun registration =>
    (if readyRead registry readable fd then [(registration.evd, eventRead)] else []) ++
      (if readyWrite registry writable fd then [(registration.evd, eventWrite)] else [])
  select : PollsExactly fdSetsize registry backends.select (.ready readable writable)

end Reports

end ZapeProof
