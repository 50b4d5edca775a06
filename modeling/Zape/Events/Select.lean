import Zape.Events.Epoll
import Zape.Hash.Table
import Zape.Machine.Runs

/-! `ape_event_select.c`, and the events that `APE_loop_run` reads from it in one round. -/
namespace ZapeModel

inductive SelectFault
  | hash (fault : HashFault)
  | wildPointer
  | nullDereference
  | beyondSet
  | beyondEvents
  | exited
  deriving DecidableEq, Repr

def kWatchForReadEvent : BitVec 8 := 0b00001#8
def kWatchForWriteEvent : BitVec 8 := 0b00010#8
def kReadyForReadEvent : BitVec 8 := 0b01000#8
def kReadyForWriteEvent : BitVec 8 := 0b10000#8
def kIsReadyEvent : BitVec 8 := kReadyForReadEvent ||| kReadyForWriteEvent

/-- `select_fdinfo_t`. -/
structure SelectFdinfo where
  ptr : EventDescriptor
  fd : BitVec 32
  watchfor : BitVec 8
  deriving DecidableEq, Repr

/-- `struct _fdevent` with the memory of its records. A record that is freed keeps what it held, and no other gets its address. -/
structure SelectFdevent where
  fdhash : HashTable (BitVec 64)
  info : Nat → Option SelectFdinfo := fun _ => none
  allocated : Nat := 0
  events : List HashContent := []

/-- `select` fails, or leaves in the sets those descriptors that are ready. -/
inductive SelectReply
  | failed
  | ready (readable writable : Nat → Bool)

/-- `rfds`, `wfds` and `maxfd`. -/
structure SelectSets where
  rfds : Nat → Bool := fun _ => false
  wfds : Nat → Bool := fun _ => false
  maxfd : Nat := 0

def watchFor (bitadd : BitVec 32) : BitVec 8 :=
  (if bitadd &&& eventRead ≠ 0#32 then kWatchForReadEvent else 0#8) |||
    (if bitadd &&& eventWrite ≠ 0#32 then kWatchForWriteEvent else 0#8)

namespace SelectFdinfo

def watchesRead (fdinfo : SelectFdinfo) : Bool := fdinfo.watchfor &&& kWatchForReadEvent ≠ 0#8

def watchesWrite (fdinfo : SelectFdinfo) : Bool := fdinfo.watchfor &&& kWatchForWriteEvent ≠ 0#8

/-- `watchfor &= ~kIsReady_Event`. -/
def unready (fdinfo : SelectFdinfo) : SelectFdinfo := { fdinfo with watchfor := fdinfo.watchfor &&& ~~~kIsReadyEvent }

def mark (fdinfo : SelectFdinfo) (bit : BitVec 8) : SelectFdinfo := { fdinfo with watchfor := fdinfo.watchfor ||| bit }

/-- What `event_select_revent` makes of the record. -/
def bitret (fdinfo : SelectFdinfo) : BitVec 32 :=
  (if fdinfo.watchfor &&& kReadyForReadEvent ≠ 0#8 then eventRead else 0#32) |||
    (if fdinfo.watchfor &&& kReadyForWriteEvent ≠ 0#8 then eventWrite else 0#32)

end SelectFdinfo

namespace SelectFdevent

/-- `event_select_clean_fd` got the record. -/
def freed (ev : SelectFdevent) (address : Nat) : Bool := ev.fdhash.cleaned.any (·.content = some address)

def read (ev : SelectFdevent) (address : Nat) : Except SelectFault SelectFdinfo :=
  match ev.info address with
  | none => .error .wildPointer
  | some fdinfo => .ok fdinfo

def change (ev : SelectFdevent) (address : Nat) (f : SelectFdinfo → SelectFdinfo) : Except SelectFault SelectFdevent :=
  (ev.read address).map fun fdinfo => { ev with info := Function.update ev.info address (some (f fdinfo)) }

def seek (ev : SelectFdevent) (key : BitVec 64) : Except SelectFault HashContent :=
  (hashtblSeek64 ev.fdhash key).mapError .hash

end SelectFdevent

def eventSelectInit : SelectFdevent := { fdhash := HashTable.hashtblInit.hashtblSetCleaner }

section Descriptors

variable (fdSetsize : Nat) (ev : SelectFdevent) (fd : BitVec 32) (evd : EventDescriptor) (bitadd : BitVec 32)

def eventSelectAdd : Except SelectFault (SelectFdevent × Int) :=
  if fd.toInt < 0 ∨ fd.toInt > fdSetsize then .ok (ev, -1)
  else
    let fdinfo := ev.allocated
    let info := Function.update ev.info fdinfo (some { ptr := evd, fd, watchfor := watchFor bitadd })
    ((hashtblAppend64 ev.fdhash (fd.signExtend 64) (some fdinfo)).mapError .hash).map fun fdhash =>
      ({ ev with fdhash, info, allocated := fdinfo + 1 }, 1)

def eventSelectDel : Except SelectFault (SelectFdevent × Int) :=
  ((hashtblErase64 ev.fdhash (fd.signExtend 64)).mapError .hash).map fun fdhash => ({ ev with fdhash }, 1)

def eventSelectMod : Except SelectFault (SelectFdevent × Int) :=
  (ev.seek (fd.signExtend 64)).bind fun
    | none => .ok (ev, 0)
    | some fdinfo =>
      (ev.change fdinfo fun fdinfo => { fdinfo with watchfor := watchFor bitadd }).map fun ev => (ev, 1)

end Descriptors

section Polling

variable (fdSetsize : Nat)

/-- `FD_SET`. -/
def fdSet (set : Nat → Bool) (fd : BitVec 32) : Except SelectFault (Nat → Bool) :=
  if fd.toNat < fdSetsize then .ok (Function.update set fd.toNat true) else .error .beyondSet

/-- The body of the walk over the table, once the ready bits are gone. -/
def watchSets (sets : SelectSets) (fdinfo : SelectFdinfo) : Except SelectFault SelectSets :=
  (if fdinfo.watchesRead then fdSet fdSetsize sets.rfds fdinfo.fd else .ok sets.rfds).bind fun rfds =>
    (if fdinfo.watchesWrite then fdSet fdSetsize sets.wfds fdinfo.fd else .ok sets.wfds).map fun wfds =>
      let tmpfd := if fdinfo.watchesRead || fdinfo.watchesWrite then fdinfo.fd.toNat else 0
      { rfds, wfds, maxfd := if tmpfd > sets.maxfd then tmpfd else sets.maxfd }

def watchItems (ev : SelectFdevent) (sets : SelectSets) :
    List (HashItem (BitVec 64)) → Except SelectFault (SelectFdevent × SelectSets)
  | [] => .ok (ev, sets)
  | item :: items =>
    match item.content with
    | none => .error .nullDereference
    | some address =>
      (ev.change address SelectFdinfo.unready).bind fun ev =>
        (ev.read address).bind fun fdinfo =>
          (watchSets fdSetsize sets fdinfo).bind fun sets => watchItems ev sets items

/-- `FD_ISSET`. -/
def fdIsset (set : Nat → Bool) (fd : Nat) : Except SelectFault Bool :=
  if fd < fdSetsize then .ok (set fd) else .error .beyondSet

/-- A descriptor that is in both sets is sought once. -/
def markReady (sets : SelectSets) (ev : SelectFdevent) (fd : Nat) : Except SelectFault SelectFdevent :=
  (fdIsset fdSetsize sets.rfds fd).bind fun readable =>
    (fdIsset fdSetsize sets.wfds fd).bind fun writable =>
      if readable then
        (ev.seek (BitVec.ofNat 64 fd)).bind fun
          | none => .ok ev
          | some fdinfo =>
            (ev.change fdinfo (·.mark kReadyForReadEvent)).bind fun ev =>
              if writable then ev.change fdinfo (·.mark kReadyForWriteEvent) else .ok ev
      else if writable then
        (ev.seek (BitVec.ofNat 64 fd)).bind fun
          | none => .ok ev
          | some fdinfo => ev.change fdinfo (·.mark kReadyForWriteEvent)
      else .ok ev

/-- The next element of `events`, of which there are `FD_SETSIZE`. -/
def pushReady (sets : SelectSets) (ev : SelectFdevent) (fd : Nat) : Except SelectFault SelectFdevent :=
  (fdIsset fdSetsize sets.rfds fd).bind fun readable =>
    (fdIsset fdSetsize sets.wfds fd).bind fun writable =>
      if readable || writable then
        if ev.events.length < fdSetsize then
          (ev.seek (BitVec.ofNat 64 fd)).map fun fdinfo => { ev with events := ev.events ++ [fdinfo] }
        else .error .beyondEvents
      else .ok ev

def eachFd (body : SelectFdevent → Nat → Except SelectFault SelectFdevent) (ev : SelectFdevent) :
    List Nat → Except SelectFault SelectFdevent
  | [] => .ok ev
  | fd :: fds => (body ev fd).bind fun ev => eachFd body ev fds

/-- The sets after `select`, and how many descriptors are in them. -/
def selectSets (sets : SelectSets) (readable writable : Nat → Bool) : SelectSets × Nat :=
  let rfds := fun fd => sets.rfds fd && readable fd
  let wfds := fun fd => sets.wfds fd && writable fd
  let fds := List.range (sets.maxfd + 1)
  ({ sets with rfds, wfds }, fds.countP rfds + fds.countP wfds)

/-- With the number of its events. The process ends where `select` fails. -/
def eventSelectPoll (ev : SelectFdevent) (reply : SelectReply) : Except SelectFault (SelectFdevent × Nat) :=
  ((ev.fdhash.enumerate ev.fdhash.count ev.fdhash.first).mapError .hash).bind fun items =>
    (watchItems fdSetsize ev {} items).bind fun (ev, sets) =>
      if sets.maxfd = 0 then .ok (ev, 0)
      else
        match reply with
        | .failed => .error .exited
        | .ready readable writable =>
          let (sets, numfds) := selectSets sets readable writable
          if numfds = 0 then .ok (ev, 0)
          else
            let fds := List.range (sets.maxfd + 1)
            (eachFd (markReady fdSetsize sets) ev fds).bind fun ev =>
              (eachFd (pushReady fdSetsize sets) { ev with events := [] } fds).map fun ev => (ev, ev.events.length)

end Polling

section Events

variable (ev : SelectFdevent) (i : Nat)

def selectEntry : Except SelectFault Nat :=
  match ev.events[i]? with
  | none => .error .beyondEvents
  | some none => .error .nullDereference
  | some (some address) => .ok address

def eventSelectGetEvd : Except SelectFault EventDescriptor :=
  (selectEntry ev i).bind fun fdinfo => (ev.read fdinfo).map (·.ptr)

def eventSelectRevent : Except SelectFault (SelectFdevent × BitVec 32) :=
  (selectEntry ev i).bind fun address =>
    (ev.read address).bind fun fdinfo => (ev.change address SelectFdinfo.unready).map fun ev => (ev, fdinfo.bitret)

end Events

/-- What a callback does to the events. -/
inductive SelectOp
  | add (fd : BitVec 32) (evd : EventDescriptor) (bitadd : BitVec 32)
  | mod (fd : BitVec 32) (bitadd : BitVec 32)
  | del (fd : BitVec 32)
  deriving DecidableEq, Repr

def SelectOp.step (fdSetsize : Nat) (ev : SelectFdevent) : SelectOp → Except SelectFault SelectFdevent
  | .add fd evd bitadd => (eventSelectAdd fdSetsize ev fd evd bitadd).map Prod.fst
  | .mod fd bitadd => (eventSelectMod ev fd bitadd).map Prod.fst
  | .del fd => (eventSelectDel ev fd).map Prod.fst

inductive SelectCall
  | op (op : SelectOp)
  | poll (reply : SelectReply)
  | revent (i : Nat)

def SelectCall.step (fdSetsize : Nat) (ev : SelectFdevent) : SelectCall → Except SelectFault SelectFdevent
  | .op call => call.step fdSetsize ev
  | .poll reply => (eventSelectPoll fdSetsize ev reply).map Prod.fst
  | .revent i => (eventSelectRevent ev i).map Prod.fst

/-- An event of the loop, with the record that it was read from, and whether this was freed by then. -/
structure SelectEvent where
  address : Nat
  freed : Bool
  evd : EventDescriptor
  bitev : BitVec 32
  deriving DecidableEq, Repr

/-- The turns of the `for` loop of `APE_loop_run` for these `i`, each with what the callbacks of its event do. -/
def loopEvents (fdSetsize : Nat) (callbacks : Nat → List SelectOp) (ev : SelectFdevent) :
    List Nat → Except SelectFault (SelectFdevent × List SelectEvent)
  | [] => .ok (ev, [])
  | i :: is =>
    (selectEntry ev i).bind fun address =>
      (eventSelectGetEvd ev i).bind fun evd =>
        (eventSelectRevent ev i).bind fun (changed, bitev) =>
          (Machine.runAll (SelectOp.step fdSetsize) changed (callbacks i)).bind fun changed =>
            (loopEvents fdSetsize callbacks changed is).map fun (last, events) =>
              (last, { address, freed := ev.freed address, evd, bitev } :: events)

end ZapeModel
