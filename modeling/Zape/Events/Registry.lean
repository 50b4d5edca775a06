import Zape.Events.Select
import Zape.Hash.Mapping

/-! The descriptors that were registered with `select`, as a map from their numbers, and the records that hold them. -/
namespace ZapeProof

open Machine ZapeModel

/-- What a descriptor was registered with, and the events that it was given last. -/
structure Registration where
  evd : EventDescriptor
  bitadd : BitVec 32
  deriving DecidableEq

namespace Registration

def asksRead (registration : Registration) : Bool := registration.bitadd &&& eventRead ≠ 0#32

def asksWrite (registration : Registration) : Bool := registration.bitadd &&& eventWrite ≠ 0#32

end Registration

abbrev Registry := BitVec 32 → Option Registration

def acceptsFd (fdSetsize : Nat) (fd : BitVec 32) : Bool := 0 ≤ fd.toInt ∧ fd.toInt ≤ fdSetsize

/-- `event_select_mod` keeps the pointer that the descriptor was registered with. -/
def opRegistry (fdSetsize : Nat) (registry : Registry) : SelectOp → Registry
  | .add fd evd bitadd => if acceptsFd fdSetsize fd then Function.update registry fd (some { evd, bitadd }) else registry
  | .mod fd bitadd => Function.update registry fd ((registry fd).map fun registration => { registration with bitadd })
  | .del fd => Function.update registry fd none

/-- What a record says of a descriptor that is registered. -/
structure Describes (registration : Registration) (fd : BitVec 32) (fdinfo : SelectFdinfo) : Prop where
  ptr : fdinfo.ptr = registration.evd
  fd : fdinfo.fd = fd
  read : fdinfo.watchesRead = registration.asksRead
  write : fdinfo.watchesWrite = registration.asksWrite

def spotOf (ev : SelectFdevent) (fd : BitVec 32) : Nat × BitVec 64 := place integerKey ev.fdhash.size (fd.signExtend 64)

/-- The table holds these records under their descriptors. -/
def HoldsRecords (ev : SelectFdevent) (records : BitVec 32 → Option Nat) (map : Nat × BitVec 64 → Option HashContent) :
    Prop :=
  (∀ fd, map (spotOf ev fd) = (records fd).map some) ∧ ∀ spot content, map spot = some content → ∃ fd, spot = spotOf ev fd

structure Registers (fdSetsize : Nat) (ev : SelectFdevent) (registry : Registry)
    (records : BitVec 32 → Option Nat) : Prop where
  table : ∃ map, Tabulates integerKey ev.fdhash map ∧ HoldsRecords ev records map
  cleaner : ev.fdhash.cleaner = true
  described : ∀ fd address, records fd = some address →
    ∃ registration fdinfo, registry fd = some registration ∧ ev.info address = some fdinfo ∧ Describes registration fd fdinfo
  recorded : ∀ fd, records fd = none → registry fd = none
  accepted : ∀ fd address, records fd = some address → acceptsFd fdSetsize fd = true
  apart : ∀ fd fd' address, records fd = some address → records fd' = some address → fd = fd'
  below : ∀ fd address, records fd = some address → address < ev.allocated
  freed : ∀ address, ev.freed address = true → address < ev.allocated

section Records

variable {fdSetsize : Nat} {ev : SelectFdevent} {registry : Registry} {records : BitVec 32 → Option Nat}

theorem spotOf_injective {fd fd' : BitVec 32} (same : spotOf ev fd = spotOf ev fd') : fd = fd' := by
  have keys : fd.signExtend 64 = fd'.signExtend 64 := congrArg Prod.snd same
  apply BitVec.eq_of_toInt_eq
  rw [← BitVec.toInt_signExtend_of_le (show 32 ≤ 64 by decide), keys, BitVec.toInt_signExtend_of_le (by decide)]

theorem freed_iff (address : Nat) : ev.freed address = true ↔ some address ∈ ev.fdhash.cleaned.map (·.content) := by
  simp [SelectFdevent.freed]

theorem spotOf_size {other : SelectFdevent} (size : other.fdhash.size = ev.fdhash.size) : spotOf other = spotOf ev := by
  funext fd
  rw [spotOf, spotOf, size]

theorem placed_spotOf (fd : BitVec 32) : placed integerKey ev.fdhash.size (fd.signExtend 64) = some (spotOf ev fd) := rfl

theorem seek_records (registers : Registers fdSetsize ev registry records) (fd : BitVec 32) :
    ev.seek (fd.signExtend 64) = .ok (records fd) := by
  obtain ⟨map, tabulates, held, -⟩ := registers.table
  have found := seek_map tabulates (fd.signExtend 64)
  rw [placed_spotOf, Option.bind_some, held] at found
  rw [SelectFdevent.seek, hashtblSeek64, found]
  cases records fd <;> rfl

/-- One call on the table, at the place of one descriptor. The cleaner gets the record that is stored over an old one, or
    the one that is erased. -/
theorem table_call {call : HashCall (BitVec 64)} {fd : BitVec 32} {address : Option Nat}
    (registers : Registers fdSetsize ev registry records) (key : callKey call = fd.signExtend 64)
    (content : callContent call = address.map some) :
    ∃ fdhash, integerKey.step ev.fdhash call = .ok fdhash ∧ fdhash.cleaner = true ∧
      (∃ map, Tabulates integerKey fdhash map ∧ HoldsRecords { ev with fdhash } (Function.update records fd address) map) ∧
      ∀ record, some record ∈ fdhash.cleaned.map (·.content) ↔
        ev.freed record = true ∨ ∃ old, records fd = some old ∧ record = address.getD old := by
  obtain ⟨map, tabulates, held, only⟩ := registers.table
  obtain ⟨fdhash, ended, step⟩ := stepped_call tabulates call
  have named : placed integerKey ev.fdhash.size (callKey call) = some (spotOf ev fd) := by
    rw [key]
    rfl
  have elsewhere : ∀ spot, spot ≠ spotOf ev fd → placed integerKey ev.fdhash.size (callKey call) ≠ some spot := by
    rw [named]
    exact fun spot apart same => apart (Option.some.inj same).symm
  have spots : spotOf { ev with fdhash } = spotOf ev := spotOf_size step.size
  refine ⟨fdhash, ended, step.cleaner.trans registers.cleaner, ⟨_, step.toTabulates, ?_, ?_⟩, ?_⟩
  · intro fd'
    rw [spots]
    by_cases same : fd' = fd
    · subst same
      rw [mapCall_here named, content, Function.update_self]
    · rw [mapCall_elsewhere (elsewhere _ fun equal => same (spotOf_injective equal)), held, Function.update_of_ne same]
  · intro spot stored here
    rw [spots]
    by_cases same : spot = spotOf ev fd
    · exact ⟨fd, same⟩
    · rw [mapCall_elsewhere (elsewhere spot same)] at here
      exact only spot stored here
  · intro record
    rw [step.cleaned, if_pos registers.cleaner, List.mem_append, ← freed_iff, or_comm]
    apply or_congr_right
    cases call with
    | append key' stored =>
      cases address with
      | none => cases content
      | some new =>
        cases Option.some.inj content
        have here : placed integerKey ev.fdhash.size key' = some (spotOf ev fd) := named
        simp only [cleans, here, Option.bind_some, held]
        cases records fd with
        | none => simp
        | some old => simp
    | erase key' =>
      cases address with
      | some new => cases content
      | none =>
        have here : placed integerKey ev.fdhash.size key' = some (spotOf ev fd) := named
        simp only [cleans, here, Option.bind_some, held]
        cases records fd with
        | none => simp
        | some old => simp

theorem accepts_iff (fd : BitVec 32) : acceptsFd fdSetsize fd = true ↔ ¬ (fd.toInt < 0 ∨ fd.toInt > fdSetsize) := by
  rw [acceptsFd, decide_eq_true_iff]
  omega

theorem watchesRead_watchFor (evd : EventDescriptor) (fd bitadd : BitVec 32) :
    ({ ptr := evd, fd, watchfor := watchFor bitadd } : SelectFdinfo).watchesRead =
      ({ evd, bitadd } : Registration).asksRead := by
  simp only [SelectFdinfo.watchesRead, Registration.asksRead, watchFor]
  by_cases read : bitadd &&& eventRead = 0#32
  · by_cases write : bitadd &&& eventWrite = 0#32
    · simp [read, write]
    · simp [read, write, kWatchForReadEvent, kWatchForWriteEvent]
  · by_cases write : bitadd &&& eventWrite = 0#32
    · simp [read, write, kWatchForReadEvent]
    · simp [read, write, kWatchForReadEvent, kWatchForWriteEvent]

theorem watchesWrite_watchFor (evd : EventDescriptor) (fd bitadd : BitVec 32) :
    ({ ptr := evd, fd, watchfor := watchFor bitadd } : SelectFdinfo).watchesWrite =
      ({ evd, bitadd } : Registration).asksWrite := by
  simp only [SelectFdinfo.watchesWrite, Registration.asksWrite, watchFor]
  by_cases read : bitadd &&& eventRead = 0#32
  · by_cases write : bitadd &&& eventWrite = 0#32
    · simp [read, write]
    · simp [read, write, kWatchForWriteEvent]
  · by_cases write : bitadd &&& eventWrite = 0#32
    · simp [read, write, kWatchForReadEvent, kWatchForWriteEvent]
    · simp [read, write, kWatchForReadEvent, kWatchForWriteEvent]

theorem describes_watchFor (evd : EventDescriptor) (fd bitadd : BitVec 32) :
    Describes { evd, bitadd } fd { ptr := evd, fd, watchfor := watchFor bitadd } where
  ptr := rfl
  fd := rfl
  read := watchesRead_watchFor evd fd bitadd
  write := watchesWrite_watchFor evd fd bitadd

theorem update_some {info : Nat → Option SelectFdinfo} (other address : Nat) (fdinfo : SelectFdinfo)
    (held : info other ≠ none) : Function.update info address (some fdinfo) other ≠ none := by
  by_cases same : other = address
  · simp [same]
  · rwa [Function.update_of_ne same]

/-- Writing a record so that it still describes its descriptor. -/
theorem registers_change {address : Nat} {written : SelectFdinfo} {fd : BitVec 32} {registration : Registration}
    (registers : Registers fdSetsize ev registry records) (record : records fd = some address)
    (describes : Describes registration fd written) :
    Registers fdSetsize { ev with info := Function.update ev.info address (some written) }
      (Function.update registry fd (some registration)) records where
  table := registers.table
  cleaner := registers.cleaner
  described := by
    intro fd' address' record'
    by_cases same : fd' = fd
    · subst same
      cases record.symm.trans record'
      exact ⟨registration, written, Function.update_self _ _ _, Function.update_self _ _ _, describes⟩
    · have apart : address' ≠ address := by
        rintro rfl
        exact same (registers.apart _ _ _ record' record)
      obtain ⟨registration', fdinfo', registered, info, described⟩ := registers.described fd' address' record'
      exact ⟨registration', fdinfo', (Function.update_of_ne same _ _).trans registered,
        (Function.update_of_ne apart _ _).trans info, described⟩
  recorded := by
    intro fd' unrecorded
    have apart : fd' ≠ fd := by
      rintro rfl
      cases record.symm.trans unrecorded
    rw [Function.update_of_ne apart]
    exact registers.recorded fd' unrecorded
  accepted := registers.accepted
  apart := registers.apart
  below := registers.below
  freed := registers.freed

/-- The records after a step. -/
def opRecords (fdSetsize : Nat) (ev : SelectFdevent) (records : BitVec 32 → Option Nat) : SelectOp → BitVec 32 → Option Nat
  | .add fd _ _ => if acceptsFd fdSetsize fd then Function.update records fd (some ev.allocated) else records
  | .mod _ _ => records
  | .del fd => Function.update records fd none

/-- Which record a step frees: a new one that takes the place of an old one, or the one that is erased. -/
def opFrees (fdSetsize : Nat) (ev : SelectFdevent) (records : BitVec 32 → Option Nat) : SelectOp → Option Nat
  | .add fd _ _ => if acceptsFd fdSetsize fd then (records fd).map fun _ => ev.allocated else none
  | .mod _ _ => none
  | .del fd => records fd

/-- What a step leaves. -/
structure OpStepped (fdSetsize : Nat) (ev next : SelectFdevent) (registry : Registry) (records : BitVec 32 → Option Nat)
    (op : SelectOp) : Prop where
  registers : Registers fdSetsize next (opRegistry fdSetsize registry op) (opRecords fdSetsize ev records op)
  freed : ∀ address, next.freed address = true ↔ ev.freed address = true ∨ opFrees fdSetsize ev records op = some address
  allocated : ev.allocated ≤ next.allocated
  events : next.events = ev.events
  info : ∀ address, ev.info address ≠ none → next.info address ≠ none

theorem add_stepped (registers : Registers fdSetsize ev registry records) (fd : BitVec 32) (evd : EventDescriptor)
    (bitadd : BitVec 32) :
    ∃ next, (SelectOp.add fd evd bitadd).step fdSetsize ev = .ok next ∧
      OpStepped fdSetsize ev next registry records (.add fd evd bitadd) := by
  cases accepted : acceptsFd fdSetsize fd with
  | false =>
    have refused : fd.toInt < 0 ∨ fd.toInt > fdSetsize := by
      by_contra taken
      rw [(accepts_iff fd).mpr taken] at accepted
      cases accepted
    refine ⟨ev, ?_, { registers := ?_, freed := ?_, allocated := le_rfl, events := rfl, info := fun _ => id }⟩
    · rw [SelectOp.step, eventSelectAdd, if_pos refused]
      rfl
    · simpa [opRegistry, opRecords, accepted] using registers
    · simp [opFrees, accepted]
  | true =>
    obtain ⟨fdhash, ended, cleaner, table, cleaned⟩ :=
      @table_call _ _ _ _ (.append (fd.signExtend 64) (some ev.allocated)) fd (some ev.allocated) registers rfl rfl
    let fdinfo : SelectFdinfo := { ptr := evd, fd, watchfor := watchFor bitadd }
    let next : SelectFdevent :=
      { ev with fdhash, info := Function.update ev.info ev.allocated (some fdinfo), allocated := ev.allocated + 1 }
    have frees : ∀ address, next.freed address = true ↔
        ev.freed address = true ∨ opFrees fdSetsize ev records (.add fd evd bitadd) = some address := by
      intro address
      rw [freed_iff, cleaned, opFrees, if_pos accepted]
      apply or_congr_right
      cases records fd with
      | none => simp
      | some old => simp [eq_comm]
    refine ⟨next, ?_, { registers := ?_, freed := frees, allocated := Nat.le_succ _, events := rfl,
                        info := fun address => update_some address ev.allocated fdinfo }⟩
    · have appended : hashtblAppend64 ev.fdhash (fd.signExtend 64) (some ev.allocated) = .ok fdhash := ended
      rw [SelectOp.step, eventSelectAdd, if_neg ((accepts_iff fd).mp accepted)]
      dsimp only
      rw [appended]
      rfl
    · have fresh : ∀ fd' address, records fd' = some address → address ≠ ev.allocated := by
        intro fd' address record
        exact (registers.below fd' address record).ne
      rw [opRegistry, opRecords, if_pos accepted, if_pos accepted]
      refine { table := table, cleaner, described := ?_, recorded := ?_, accepted := ?_, apart := ?_,
               below := ?_, freed := ?_ }
      · intro fd' address record
        by_cases same : fd' = fd
        · subst same
          rw [Function.update_self] at record
          cases record
          exact ⟨_, fdinfo, Function.update_self _ _ _, Function.update_self _ _ _, describes_watchFor evd fd' bitadd⟩
        · rw [Function.update_of_ne same] at record
          obtain ⟨registration, old, registered, info, described⟩ := registers.described fd' address record
          exact ⟨registration, old, (Function.update_of_ne same _ _).trans registered,
            (Function.update_of_ne (fresh fd' address record) _ _).trans info, described⟩
      · intro fd' unrecorded
        by_cases same : fd' = fd
        · subst same
          rw [Function.update_self] at unrecorded
          cases unrecorded
        · rw [Function.update_of_ne same] at unrecorded ⊢
          exact registers.recorded fd' unrecorded
      · intro fd' address record
        by_cases same : fd' = fd
        · exact same ▸ accepted
        · rw [Function.update_of_ne same] at record
          exact registers.accepted fd' address record
      · intro fd₁ fd₂ address first second
        by_cases one : fd₁ = fd
        · by_cases two : fd₂ = fd
          · exact one.trans two.symm
          · rw [one, Function.update_self] at first
            rw [Function.update_of_ne two] at second
            exact absurd (Option.some.inj first).symm (fresh fd₂ address second)
        · rw [Function.update_of_ne one] at first
          by_cases two : fd₂ = fd
          · rw [two, Function.update_self] at second
            exact absurd (Option.some.inj second).symm (fresh fd₁ address first)
          · rw [Function.update_of_ne two] at second
            exact registers.apart fd₁ fd₂ address first second
      · intro fd' address record
        by_cases same : fd' = fd
        · rw [same, Function.update_self] at record
          cases record
          exact Nat.lt_succ_self _
        · rw [Function.update_of_ne same] at record
          exact (registers.below fd' address record).trans (Nat.lt_succ_self _)
      · intro address freed
        rcases (frees address).mp freed with old | new
        · exact (registers.freed address old).trans (Nat.lt_succ_self _)
        · rw [opFrees, if_pos accepted] at new
          obtain ⟨_, -, rfl⟩ := Option.map_eq_some_iff.mp new
          exact Nat.lt_succ_self _

theorem del_stepped (registers : Registers fdSetsize ev registry records) (fd : BitVec 32) :
    ∃ next, (SelectOp.del fd).step fdSetsize ev = .ok next ∧ OpStepped fdSetsize ev next registry records (.del fd) := by
  obtain ⟨fdhash, ended, cleaner, table, cleaned⟩ :=
    @table_call _ _ _ _ (.erase (fd.signExtend 64)) fd none registers rfl rfl
  have frees : ∀ address, ({ ev with fdhash } : SelectFdevent).freed address = true ↔
      ev.freed address = true ∨ opFrees fdSetsize ev records (.del fd) = some address := by
    intro address
    rw [freed_iff, cleaned, opFrees]
    apply or_congr_right
    simp
  have kept : ∀ fd' address, Function.update records fd none fd' = some address → fd' ≠ fd ∧ records fd' = some address := by
    intro fd' address record
    by_cases same : fd' = fd
    · rw [same, Function.update_self] at record
      cases record
    · rw [Function.update_of_ne same] at record
      exact ⟨same, record⟩
  refine ⟨{ ev with fdhash }, ?_,
    { registers := ?_, freed := frees, allocated := le_rfl, events := rfl, info := fun _ => id }⟩
  · have erased : hashtblErase64 ev.fdhash (fd.signExtend 64) = .ok fdhash := ended
    rw [SelectOp.step, eventSelectDel, erased]
    rfl
  · refine { table := table, cleaner, described := ?_, recorded := ?_, accepted := ?_, apart := ?_, below := ?_, freed := ?_ }
    · intro fd' address record
      obtain ⟨apart, old⟩ := kept fd' address record
      obtain ⟨registration, fdinfo, registered, info, described⟩ := registers.described fd' address old
      exact ⟨registration, fdinfo, (Function.update_of_ne apart _ _).trans registered, info, described⟩
    · intro fd' unrecorded
      by_cases same : fd' = fd
      · rw [same]
        exact Function.update_self _ _ _
      · rw [opRecords, Function.update_of_ne same] at unrecorded
        rw [opRegistry, Function.update_of_ne same]
        exact registers.recorded fd' unrecorded
    · intro fd' address record
      exact registers.accepted fd' address (kept fd' address record).2
    · intro fd₁ fd₂ address first second
      exact registers.apart fd₁ fd₂ address (kept fd₁ address first).2 (kept fd₂ address second).2
    · intro fd' address record
      exact registers.below fd' address (kept fd' address record).2
    · intro address freed
      rcases (frees address).mp freed with old | new
      · exact registers.freed address old
      · exact registers.below fd address new

theorem mod_stepped (registers : Registers fdSetsize ev registry records) (fd bitadd : BitVec 32) :
    ∃ next, (SelectOp.mod fd bitadd).step fdSetsize ev = .ok next ∧
      OpStepped fdSetsize ev next registry records (.mod fd bitadd) := by
  cases record : records fd with
  | none =>
    refine ⟨ev, ?_, { registers := ?_, freed := ?_, allocated := le_rfl, events := rfl, info := fun _ => id }⟩
    · rw [SelectOp.step, eventSelectMod, seek_records registers, record]
      rfl
    · have unregistered : registry fd = none := registers.recorded fd record
      rw [opRegistry, unregistered, Option.map_none, ← unregistered, Function.update_eq_self]
      exact registers
    · simp [opFrees]
  | some address =>
    obtain ⟨registration, fdinfo, registered, info, described⟩ := registers.described fd address record
    let written : SelectFdinfo := { fdinfo with watchfor := watchFor bitadd }
    have describes : Describes { registration with bitadd } fd written := by
      have written_eq : written = { ptr := registration.evd, fd, watchfor := watchFor bitadd } := by
        rw [← described.ptr, ← described.fd]
      rw [written_eq]
      exact describes_watchFor registration.evd fd bitadd
    refine ⟨{ ev with info := Function.update ev.info address (some written) }, ?_,
      { registers := ?_, freed := ?_, allocated := le_rfl, events := rfl,
        info := fun other => update_some other address written }⟩
    · rw [SelectOp.step, eventSelectMod, seek_records registers, record]
      show Except.map Prod.fst (Except.map _ (ev.change address _)) = _
      rw [SelectFdevent.change, SelectFdevent.read, info]
      rfl
    · rw [opRegistry, registered]
      exact registers_change registers record describes
    · intro freed
      rw [opFrees]
      simp [SelectFdevent.freed]

theorem op_stepped (registers : Registers fdSetsize ev registry records) (op : SelectOp) :
    ∃ next, op.step fdSetsize ev = .ok next ∧ OpStepped fdSetsize ev next registry records op := by
  cases op with
  | add fd evd bitadd => exact add_stepped registers fd evd bitadd
  | mod fd bitadd => exact mod_stepped registers fd bitadd
  | del fd => exact del_stepped registers fd

end Records

end ZapeProof
