import Zape.Ape.Socket

/-! `ape_events.c` over `ape_event_epoll.c`: what `epoll` watches, and how many descriptors the code believes it watches. -/
namespace ZapeModel

def eventRead : BitVec 32 := 0x01#32
def eventWrite : BitVec 32 := 0x02#32
def eventLevel : BitVec 32 := 0x04#32

def epollin : BitVec 32 := 0x00000001#32
def epollpri : BitVec 32 := 0x00000002#32
def epollout : BitVec 32 := 0x00000004#32
def epollet : BitVec 32 := 0x80000000#32

/-- What `data.ptr` points to: a socket, or an entry of `dns.sockets.list`. -/
inductive EventDescriptor
  | socket (index : Nat)
  | delegate (slot : Nat)
  deriving DecidableEq, Repr

structure Interest where
  fd : Int
  evd : EventDescriptor
  events : BitVec 32
  deriving DecidableEq, Repr

/-- `struct _fdevent`, with what the kernel watches for it. -/
structure Fdevent where
  nfd : Int := 0
  basemem : Int := 32
  interests : List Interest := []

namespace Fdevent

def watches (ev : Fdevent) (fd : Int) : Bool := ev.interests.any (·.fd = fd)

def epollEvents (bitadd : BitVec 32) : BitVec 32 :=
  (if bitadd &&& eventLevel ≠ 0#32 then 0#32 else epollet) ||| epollpri |||
    (if bitadd &&& eventRead ≠ 0#32 then epollin else 0#32) ||| (if bitadd &&& eventWrite ≠ 0#32 then epollout else 0#32)

/-- A descriptor that is watched already is refused, and others are where the kernel does not accept them. -/
def eventEpollAdd (ev : Fdevent) (fd : Int) (evd : EventDescriptor) (bitadd : BitVec 32) (accepted : Bool) : Fdevent × Int :=
  if accepted = false ∨ ev.watches fd then (ev, -1)
  else ({ ev with interests := ev.interests ++ [{ fd, evd, events := epollEvents bitadd }] }, 1)

/-- A descriptor that is not watched is refused. -/
def eventEpollMod (ev : Fdevent) (fd : Int) (evd : EventDescriptor) (bitadd : BitVec 32) (accepted : Bool) : Fdevent × Int :=
  if accepted = false ∨ ev.watches fd = false then (ev, -1)
  else
    let changed := fun interest : Interest => if interest.fd = fd then { fd, evd, events := epollEvents bitadd } else interest
    ({ ev with interests := ev.interests.map changed }, 1)

def eventsAdd (ev : Fdevent) (fd : Int) (evd : EventDescriptor) (bitadd : BitVec 32) (accepted : Bool) : Fdevent × Int :=
  let ev := { ev with nfd := ev.nfd + 1 }
  let ev := if ev.nfd > ev.basemem then { ev with basemem := ev.basemem * 2 } else ev
  ev.eventEpollAdd fd evd bitadd accepted

def eventsMod (ev : Fdevent) (fd : Int) (evd : EventDescriptor) (bitadd : BitVec 32) (accepted : Bool) : Fdevent × Int :=
  ev.eventEpollMod fd evd bitadd accepted

/-- With `epoll`, `ev->del` is `NULL`. -/
def eventsDel (ev : Fdevent) : Fdevent := { ev with nfd := ev.nfd - 1 }

/-- `close`: what the kernel watched it for is forgotten. -/
def close (ev : Fdevent) (fd : Int) : Fdevent := { ev with interests := ev.interests.filter (·.fd ≠ fd) }

/-- What `epoll_wait` reports of a descriptor that is ready for these. -/
def reported (interest : Interest) (ready : BitVec 32) : BitVec 32 := interest.events &&& ready

end Fdevent

def eventEpollRevent (events : BitVec 32) : BitVec 32 :=
  (if events &&& epollin ≠ 0#32 then eventRead else 0#32) ||| (if events &&& epollout ≠ 0#32 then eventWrite else 0#32)

end ZapeModel

namespace ZapeProof

open ZapeModel

/-- What the kernel watches a descriptor for. -/
def interestsOf (ev : Fdevent) (fd : Int) : List Interest := ev.interests.filter (·.fd = fd)

section Watch

variable {ev : Fdevent} {fd other : Int} {evd : EventDescriptor} {bitadd : BitVec 32} {accepted : Bool}

theorem watches_iff : ev.watches fd = true ↔ interestsOf ev fd ≠ [] := by
  rw [Fdevent.watches, List.any_eq_true, interestsOf, ne_eq, List.filter_eq_nil_iff]
  simp only [not_forall, not_not]
  constructor
  · rintro ⟨interest, member, same⟩
    exact ⟨interest, member, same⟩
  · rintro ⟨interest, member, same⟩
    exact ⟨interest, member, same⟩

theorem interestsOf_del : interestsOf ev.eventsDel other = interestsOf ev other := rfl

theorem interestsOf_close : interestsOf (ev.close fd) other = if other = fd then [] else interestsOf ev other := by
  rw [interestsOf, Fdevent.close, List.filter_filter]
  split
  · rename_i same
    rw [List.filter_eq_nil_iff]
    intro interest _
    simp [same]
  · rename_i apart
    apply List.filter_congr
    intro interest _
    by_cases here : interest.fd = other
    · simp [here, apart]
    · simp [here]

theorem eventsAdd_interests :
    (ev.eventsAdd fd evd bitadd accepted).1.interests =
      if accepted = false ∨ ev.watches fd then ev.interests
      else ev.interests ++ [{ fd, evd, events := Fdevent.epollEvents bitadd }] := by
  have same : ∀ grown : Fdevent, grown.interests = ev.interests → grown.watches fd = ev.watches fd := by
    intro grown interests
    rw [Fdevent.watches, Fdevent.watches, interests]
  rw [Fdevent.eventsAdd, Fdevent.eventEpollAdd]
  dsimp only
  rw [same]
  · split
    · split <;> rfl
    · split <;> rfl
  · split <;> rfl

theorem interestsOf_add :
    interestsOf (ev.eventsAdd fd evd bitadd accepted).1 other =
      if accepted = false ∨ ev.watches fd ∨ other ≠ fd then interestsOf ev other
      else interestsOf ev other ++ [{ fd, evd, events := Fdevent.epollEvents bitadd }] := by
  rw [interestsOf, eventsAdd_interests, interestsOf]
  by_cases refused : accepted = false ∨ ev.watches fd
  · rw [if_pos refused, if_pos (refused.elim .inl fun watched => .inr (.inl watched))]
  · obtain ⟨taken, unwatched⟩ := not_or.mp refused
    rw [if_neg refused, List.filter_append]
    by_cases same : other = fd
    · simp [taken, unwatched, same]
    · simp [taken, unwatched, same, Ne.symm same]

theorem interestsOf_mod :
    interestsOf (ev.eventsMod fd evd bitadd accepted).1 other =
      if accepted = false ∨ ev.watches fd = false ∨ other ≠ fd then interestsOf ev other
      else (interestsOf ev other).map fun _ => { fd, evd, events := Fdevent.epollEvents bitadd } := by
  rw [Fdevent.eventsMod, Fdevent.eventEpollMod]
  by_cases refused : accepted = false ∨ ev.watches fd = false
  · rw [if_pos refused, if_pos (refused.elim .inl fun unwatched => .inr (.inl unwatched))]
  · obtain ⟨taken, watched⟩ := not_or.mp refused
    rw [if_neg refused, interestsOf, interestsOf, List.filter_map]
    let changed := fun interest : Interest =>
      if interest.fd = fd then { fd, evd, events := Fdevent.epollEvents bitadd } else interest
    have kept : (fun interest : Interest => decide (interest.fd = other)) ∘ changed =
      fun interest => decide (interest.fd = other) := by
      funext interest
      by_cases here : interest.fd = fd
      · simp [changed, here]
      · simp [changed, here]
    show (ev.interests.filter ((fun interest => decide (interest.fd = other)) ∘ changed)).map changed = _
    rw [kept]
    by_cases same : other = fd
    · rw [if_neg (by simp [taken, watched, same])]
      apply List.map_congr_left
      intro interest member
      exact if_pos ((of_decide_eq_true (List.mem_filter.mp member).2).trans same)
    · rw [if_pos (.inr (.inr same))]
      refine (List.map_congr_left ?_).trans (List.map_id _)
      intro interest member
      have here : interest.fd = other := of_decide_eq_true (List.mem_filter.mp member).2
      exact if_neg fun equal => same (here.symm.trans equal)

end Watch

end ZapeProof
