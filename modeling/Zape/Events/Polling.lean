import Zape.Events.Registry

/-! One poll with `select`: the sets that it builds, the records that it marks, and the events that it lists. -/
namespace ZapeProof

open Machine ZapeModel

section Asked

variable (registry : Registry) (readable writable : Nat → Bool) (fd : BitVec 32)

def readAsked : Bool := (registry fd).any Registration.asksRead

def writeAsked : Bool := (registry fd).any Registration.asksWrite

def asked : Bool := readAsked registry fd || writeAsked registry fd

def readyRead : Bool := readAsked registry fd && readable fd.toNat

def readyWrite : Bool := writeAsked registry fd && writable fd.toNat

/-- The events that a descriptor asked for and is ready for. -/
def readyFor : BitVec 32 :=
  (if readyRead registry readable fd then eventRead else 0#32) |||
    (if readyWrite registry writable fd then eventWrite else 0#32)

def isReported : Bool := readyRead registry readable fd || readyWrite registry writable fd

end Asked

section Bits

variable {fdinfo : SelectFdinfo} {registration : Registration} {fd : BitVec 32}

theorem watch_unready : fdinfo.unready.watchesRead = fdinfo.watchesRead ∧
    fdinfo.unready.watchesWrite = fdinfo.watchesWrite := by
  have read : ∀ watchfor : BitVec 8, watchfor &&& ~~~kIsReadyEvent &&& kWatchForReadEvent =
      watchfor &&& kWatchForReadEvent := by
    decide
  have write : ∀ watchfor : BitVec 8, watchfor &&& ~~~kIsReadyEvent &&& kWatchForWriteEvent =
      watchfor &&& kWatchForWriteEvent := by
    decide
  simp only [SelectFdinfo.watchesRead, SelectFdinfo.watchesWrite, SelectFdinfo.unready, read, write, and_self]

theorem watch_mark {bit : BitVec 8} (ready : bit = kReadyForReadEvent ∨ bit = kReadyForWriteEvent) :
    (fdinfo.mark bit).watchesRead = fdinfo.watchesRead ∧ (fdinfo.mark bit).watchesWrite = fdinfo.watchesWrite := by
  have read : ∀ watchfor : BitVec 8, (watchfor ||| bit) &&& kWatchForReadEvent = watchfor &&& kWatchForReadEvent := by
    rcases ready with rfl | rfl <;> decide
  have write : ∀ watchfor : BitVec 8, (watchfor ||| bit) &&& kWatchForWriteEvent = watchfor &&& kWatchForWriteEvent := by
    rcases ready with rfl | rfl <;> decide
  simp only [SelectFdinfo.watchesRead, SelectFdinfo.watchesWrite, SelectFdinfo.mark, read, write, and_self]

theorem describes_unready (describes : Describes registration fd fdinfo) : Describes registration fd fdinfo.unready where
  ptr := describes.ptr
  fd := describes.fd
  read := watch_unready.1.trans describes.read
  write := watch_unready.2.trans describes.write

theorem describes_mark {bit : BitVec 8} (ready : bit = kReadyForReadEvent ∨ bit = kReadyForWriteEvent)
    (describes : Describes registration fd fdinfo) : Describes registration fd (fdinfo.mark bit) where
  ptr := describes.ptr
  fd := describes.fd
  read := (watch_mark ready).1.trans describes.read
  write := (watch_mark ready).2.trans describes.write

theorem bitret_unready : fdinfo.unready.bitret = 0#32 := by
  have read : ∀ watchfor : BitVec 8, watchfor &&& ~~~kIsReadyEvent &&& kReadyForReadEvent = 0#8 := by decide
  have write : ∀ watchfor : BitVec 8, watchfor &&& ~~~kIsReadyEvent &&& kReadyForWriteEvent = 0#8 := by decide
  simp [SelectFdinfo.bitret, SelectFdinfo.unready, read, write]

theorem bitret_mark_read : (fdinfo.mark kReadyForReadEvent).bitret = eventRead ||| fdinfo.bitret := by
  have own : ∀ watchfor : BitVec 8, (watchfor ||| kReadyForReadEvent) &&& kReadyForReadEvent ≠ 0#8 := by decide
  have other : ∀ watchfor : BitVec 8,
      (watchfor ||| kReadyForReadEvent) &&& kReadyForWriteEvent = watchfor &&& kReadyForWriteEvent := by decide
  rw [SelectFdinfo.bitret, show (fdinfo.mark kReadyForReadEvent).watchfor = fdinfo.watchfor ||| kReadyForReadEvent from rfl,
    if_pos (own _), other, SelectFdinfo.bitret]
  split <;> split <;> rfl

theorem bitret_mark_write : (fdinfo.mark kReadyForWriteEvent).bitret = fdinfo.bitret ||| eventWrite := by
  have own : ∀ watchfor : BitVec 8, (watchfor ||| kReadyForWriteEvent) &&& kReadyForWriteEvent ≠ 0#8 := by decide
  have other : ∀ watchfor : BitVec 8,
      (watchfor ||| kReadyForWriteEvent) &&& kReadyForReadEvent = watchfor &&& kReadyForReadEvent := by decide
  rw [SelectFdinfo.bitret, show (fdinfo.mark kReadyForWriteEvent).watchfor = fdinfo.watchfor ||| kReadyForWriteEvent from rfl,
    if_pos (own _), other, SelectFdinfo.bitret]
  split <;> split <;> rfl

end Bits

section Changes

variable {fdSetsize : Nat} {ev : SelectFdevent} {registry : Registry} {records : BitVec 32 → Option Nat}
  {fd : BitVec 32} {address : Nat}

/-- What a poll changes in a record leaves its descriptor registered as it was. -/
theorem change_kept {f : SelectFdinfo → SelectFdinfo} (registers : Registers fdSetsize ev registry records)
    (record : records fd = some address)
    (keeps : ∀ registration fdinfo, Describes registration fd fdinfo → Describes registration fd (f fdinfo)) :
    ∃ fdinfo, ev.info address = some fdinfo ∧
      ev.change address f = .ok { ev with info := Function.update ev.info address (some (f fdinfo)) } ∧
      Registers fdSetsize { ev with info := Function.update ev.info address (some (f fdinfo)) } registry records := by
  obtain ⟨registration, fdinfo, registered, info, described⟩ := registers.described fd address record
  refine ⟨fdinfo, info, ?_, ?_⟩
  · rw [SelectFdevent.change, SelectFdevent.read, info]
    rfl
  · have kept := registers_change registers record (keeps registration fdinfo described)
    rwa [← registered, Function.update_eq_self] at kept

/-- A poll leaves all but the records and the events. -/
structure SameTable (ev next : SelectFdevent) : Prop where
  fdhash : next.fdhash = ev.fdhash
  allocated : next.allocated = ev.allocated

theorem SameTable.trans {middle next : SelectFdevent} (first : SameTable ev middle) (second : SameTable middle next) :
    SameTable ev next where
  fdhash := second.fdhash.trans first.fdhash
  allocated := second.allocated.trans first.allocated

theorem asked_record (registers : Registers fdSetsize ev registry records) (asks : asked registry fd = true) :
    ∃ address, records fd = some address := by
  cases record : records fd with
  | some address => exact ⟨address, rfl⟩
  | none =>
    have unregistered := registers.recorded fd record
    simp [asked, readAsked, writeAsked, unregistered] at asks

end Changes

section Walking

variable {fdSetsize : Nat} {start ev : SelectFdevent} {registry : Registry} {records : BitVec 32 → Option Nat}
  {sets : SelectSets} {fds : List (BitVec 32)}

/-- The walk over the records of these descriptors. -/
structure WalkedOver (fdSetsize : Nat) (registry : Registry) (records : BitVec 32 → Option Nat) (fds : List (BitVec 32))
    (start ev : SelectFdevent) (sets : SelectSets) : Prop where
  registers : Registers fdSetsize ev registry records
  table : SameTable start ev
  events : ev.events = start.events
  unready : ∀ fd ∈ fds, ∀ address fdinfo, records fd = some address → ev.info address = some fdinfo → fdinfo.bitret = 0#32
  rfds : ∀ number, sets.rfds number = true ↔ ∃ fd ∈ fds, readAsked registry fd = true ∧ fd.toNat = number
  wfds : ∀ number, sets.wfds number = true ↔ ∃ fd ∈ fds, writeAsked registry fd = true ∧ fd.toNat = number
  above : ∀ fd ∈ fds, asked registry fd = true → fd.toNat ≤ sets.maxfd
  highest : sets.maxfd = 0 ∨ ∃ fd ∈ fds, asked registry fd = true ∧ fd.toNat = sets.maxfd

theorem fdSet_some {set : Nat → Bool} {asks : Bool} {fd : BitVec 32} (low : asks = true → fd.toNat < fdSetsize) :
    ∃ changed, (if asks = true then fdSet fdSetsize set fd else .ok set) = .ok changed ∧
      ∀ number, changed number = true ↔ set number = true ∨ asks = true ∧ fd.toNat = number := by
  cases asks with
  | false => exact ⟨set, rfl, by simp⟩
  | true =>
    refine ⟨Function.update set fd.toNat true, ?_, ?_⟩
    · rw [if_pos rfl, fdSet, if_pos (low rfl)]
    · intro number
      by_cases same : number = fd.toNat
      · simp [same]
      · simp [Function.update_of_ne same, Ne.symm same]

theorem asked_of_describes {fd : BitVec 32} {registration : Registration} {fdinfo : SelectFdinfo}
    (registered : registry fd = some registration) (describes : Describes registration fd fdinfo) :
    fdinfo.watchesRead = readAsked registry fd ∧ fdinfo.watchesWrite = writeAsked registry fd := by
  rw [readAsked, writeAsked, registered]
  exact ⟨describes.read, describes.write⟩

theorem watch_one {fd : BitVec 32} {address : Nat} (walked : WalkedOver fdSetsize registry records fds start ev sets)
    (record : records fd = some address) (low : asked registry fd = true → fd.toNat < fdSetsize) :
    ∃ next fdinfo changed, ev.change address SelectFdinfo.unready = .ok next ∧ next.read address = .ok fdinfo ∧
      watchSets fdSetsize sets fdinfo = .ok changed ∧
      WalkedOver fdSetsize registry records (fd :: fds) start next changed := by
  obtain ⟨fdinfo, info, changes, registers⟩ :=
    change_kept walked.registers record fun registration fdinfo => @describes_unready fdinfo registration fd
  let next : SelectFdevent := { ev with info := Function.update ev.info address (some fdinfo.unready) }
  have own : next.info address = some fdinfo.unready := Function.update_self _ _ _
  obtain ⟨registration, fdinfo', registered, info', describes⟩ := registers.described fd address record
  cases own.symm.trans info'
  obtain ⟨asksRead, asksWrite⟩ := asked_of_describes registered describes
  obtain ⟨rfds, setRead, inRead⟩ := @fdSet_some fdSetsize sets.rfds (readAsked registry fd) fd fun asks =>
    low (by simp [asked, asks])
  obtain ⟨wfds, setWrite, inWrite⟩ := @fdSet_some fdSetsize sets.wfds (writeAsked registry fd) fd fun asks =>
    low (by simp [asked, asks])
  let tmpfd := if asked registry fd then fd.toNat else 0
  let changed : SelectSets := { rfds, wfds, maxfd := if tmpfd > sets.maxfd then tmpfd else sets.maxfd }
  refine ⟨next, fdinfo.unready, changed, changes, ?_, ?_, ?_⟩
  · rw [SelectFdevent.read, own]
  · rw [watchSets, asksRead, asksWrite, describes.fd, setRead]
    show Except.map _ (if writeAsked registry fd = true then _ else _) = _
    rw [setWrite]
    rfl
  · refine { registers, table := walked.table.trans ⟨rfl, rfl⟩, events := walked.events, unready := ?_, rfds := ?_,
             wfds := ?_,
             above := ?_, highest := ?_ }
    · intro fd' member address' fdinfo' record' info'
      by_cases same : fd' = fd
      · subst same
        cases record.symm.trans record'
        cases own.symm.trans info'
        exact bitret_unready
      · have apart : address' ≠ address := by
          rintro rfl
          exact same (walked.registers.apart _ _ _ record' record)
        have before : ev.info address' = some fdinfo' := by
          rw [← info']
          exact (Function.update_of_ne apart _ _).symm
        exact walked.unready fd' ((List.mem_cons.mp member).resolve_left same) address' fdinfo' record' before
    · intro number
      rw [inRead, walked.rfds]
      simp only [List.mem_cons, exists_eq_or_imp]
      exact or_comm
    · intro number
      rw [inWrite, walked.wfds]
      simp only [List.mem_cons, exists_eq_or_imp]
      exact or_comm
    · intro fd' member asks
      show fd'.toNat ≤ if tmpfd > sets.maxfd then tmpfd else sets.maxfd
      rcases List.mem_cons.mp member with rfl | later
      · have here : tmpfd = fd'.toNat := if_pos asks
        rw [here]
        split <;> omega
      · have below := walked.above fd' later asks
        split <;> omega
    · show (if tmpfd > sets.maxfd then tmpfd else sets.maxfd) = 0 ∨
        ∃ fd' ∈ fd :: fds, asked registry fd' = true ∧ fd'.toNat = if tmpfd > sets.maxfd then tmpfd else sets.maxfd
      by_cases higher : tmpfd > sets.maxfd
      · rw [if_pos higher]
        by_cases asks : asked registry fd = true
        · exact .inr ⟨fd, by simp, asks, (if_pos asks).symm⟩
        · exact .inl (if_neg asks)
      · rw [if_neg higher]
        rcases walked.highest with none | ⟨fd', member, asks, same⟩
        · exact .inl none
        · exact .inr ⟨fd', by simp [member], asks, same⟩

/-- The records of these items are those of these descriptors. -/
def ItemsOf (records : BitVec 32 → Option Nat) (items : List (HashItem (BitVec 64))) (fds : List (BitVec 32)) : Prop :=
  List.Forall₂ (fun item fd => ∃ address, item.content = some address ∧ records fd = some address) items fds

theorem watch_items {items : List (HashItem (BitVec 64))} {more : List (BitVec 32)}
    (walked : WalkedOver fdSetsize registry records fds start ev sets) (of : ItemsOf records items more)
    (low : ∀ fd ∈ more, asked registry fd = true → fd.toNat < fdSetsize) :
    ∃ next changed, watchItems fdSetsize ev sets items = .ok (next, changed) ∧
      WalkedOver fdSetsize registry records (more.reverse ++ fds) start next changed := by
  induction of generalizing fds ev sets with
  | nil => exact ⟨ev, sets, rfl, walked⟩
  | @cons item fd items more here of ih =>
    obtain ⟨address, content, record⟩ := here
    obtain ⟨middle, fdinfo, between, change, read, watch, kept⟩ := watch_one walked record (low fd (by simp))
    obtain ⟨next, changed, ended, walked⟩ := ih kept fun fd' member => low fd' (by simp [member])
    refine ⟨next, changed, ?_, ?_⟩
    · simp only [watchItems, content, change, Except.bind, read, watch]
      exact ended
    · rwa [List.reverse_cons, List.append_assoc]

/-- A descriptor that is too high for the sets. -/
theorem watch_too_high {items : List (HashItem (BitVec 64))} {more : List (BitVec 32)}
    (walked : WalkedOver fdSetsize registry records fds start ev sets) (of : ItemsOf records items more)
    (high : ∃ fd ∈ more, asked registry fd = true ∧ fdSetsize ≤ fd.toNat) :
    watchItems fdSetsize ev sets items = .error .beyondSet := by
  induction of generalizing fds ev sets with
  | nil =>
    obtain ⟨fd, member, -⟩ := high
    cases member
  | @cons item fd items more here of ih =>
    obtain ⟨address, content, record⟩ := here
    by_cases low : asked registry fd = true → fd.toNat < fdSetsize
    · obtain ⟨middle, fdinfo, between, change, read, watch, kept⟩ := watch_one walked record low
      have later : ∃ fd ∈ more, asked registry fd = true ∧ fdSetsize ≤ fd.toNat := by
        obtain ⟨fd', member, asks, above⟩ := high
        rcases List.mem_cons.mp member with rfl | member
        · exact absurd (low asks) (Nat.not_lt.mpr above)
        · exact ⟨fd', member, asks, above⟩
      simp only [watchItems, content, change, Except.bind, read, watch]
      exact ih kept later
    · push Not at low
      obtain ⟨asks, above⟩ := low
      obtain ⟨fdinfo, info, changes, registers⟩ :=
        change_kept walked.registers record fun registration fdinfo => @describes_unready fdinfo registration fd
      obtain ⟨registration, fdinfo', registered, info', describes⟩ := registers.described fd address record
      cases (Function.update_self _ _ _).symm.trans info'
      obtain ⟨asksRead, asksWrite⟩ := asked_of_describes registered describes
      have refused : ∀ set, fdSet fdSetsize set fd = .error .beyondSet := fun set => if_neg (Nat.not_lt.mpr above)
      have stops : watchSets fdSetsize sets fdinfo.unready = .error .beyondSet := by
        rw [watchSets, asksRead, asksWrite, describes.fd]
        cases read : readAsked registry fd with
        | true =>
          rw [if_pos rfl, refused]
          rfl
        | false =>
          have write : writeAsked registry fd = true := by
            rw [asked, read] at asks
            exact asks
          rw [if_neg (by decide), write]
          show Except.map _ (if true = true then fdSet fdSetsize sets.wfds fd else _) = _
          rw [if_pos rfl, refused]
          rfl
      simp only [watchItems, content, changes, Except.bind, SelectFdevent.read, Function.update_self, stops]

theorem setWidth_signExtend (fd : BitVec 32) : (fd.signExtend 64).setWidth 32 = fd := by
  ext i bound
  rw [BitVec.getElem_setWidth, BitVec.getLsbD_signExtend]
  simp [bound, show i < 64 by omega]

/-- The walk comes to the records of the registered descriptors, and to no others. -/
theorem table_items (registers : Registers fdSetsize ev registry records) :
    ∃ items fds, ev.fdhash.enumerate ev.fdhash.count ev.fdhash.first = .ok items ∧ ItemsOf records items fds ∧
      ∀ fd address, records fd = some address → fd ∈ fds := by
  obtain ⟨map, ⟨⟨order, layout⟩, agrees⟩, held, only⟩ := registers.table
  obtain ⟨items, ended, -, -, stored⟩ := enumerate_map layout agrees
  have key : ∀ (item : HashItem (BitVec 64)) fd, place integerKey ev.fdhash.size item.key = spotOf ev fd →
      item.key.setWidth 32 = fd := by
    intro item fd same
    have whole : item.key = fd.signExtend 64 := congrArg Prod.snd same
    rw [whole, setWidth_signExtend]
  refine ⟨items, items.map fun item => item.key.setWidth 32, ended, ?_, ?_⟩
  · rw [ItemsOf, List.forall₂_map_right_iff, List.forall₂_same]
    intro item member
    have here := (stored (place integerKey ev.fdhash.size item.key) item.content).mpr ⟨item, member, rfl, rfl⟩
    obtain ⟨fd, spot⟩ := only _ _ here
    rw [spot, held] at here
    obtain ⟨address, record, content⟩ := Option.map_eq_some_iff.mp here
    refine ⟨address, content.symm, ?_⟩
    rw [key item fd spot]
    exact record
  · intro fd address record
    have here : map (spotOf ev fd) = some (some address) := by rw [held, record, Option.map_some]
    obtain ⟨item, member, spot, -⟩ := (stored _ _).mp here
    exact List.mem_map.mpr ⟨item, member, key item fd spot⟩

theorem walked_nil (registers : Registers fdSetsize ev registry records) :
    WalkedOver fdSetsize registry records [] ev ev {} where
  registers := registers
  table := ⟨rfl, rfl⟩
  events := rfl
  unready := by simp
  rfds := by simp
  wfds := by simp
  above := by simp
  highest := .inl rfl

/-- The sets that `select` is called with, once no record is ready. -/
structure WatchedSets (fdSetsize : Nat) (registry : Registry) (records : BitVec 32 → Option Nat) (start ev : SelectFdevent)
    (sets : SelectSets) : Prop where
  registers : Registers fdSetsize ev registry records
  table : SameTable start ev
  unready : ∀ fd address fdinfo, records fd = some address → ev.info address = some fdinfo → fdinfo.bitret = 0#32
  rfds : ∀ fd : BitVec 32, sets.rfds fd.toNat = readAsked registry fd
  wfds : ∀ fd : BitVec 32, sets.wfds fd.toNat = writeAsked registry fd
  above : ∀ fd, asked registry fd = true → fd.toNat ≤ sets.maxfd
  highest : sets.maxfd = 0 ∨ ∃ fd, asked registry fd = true ∧ fd.toNat = sets.maxfd

theorem walk_ends (registers : Registers fdSetsize ev registry records)
    (low : ∀ fd, asked registry fd = true → fd.toNat < fdSetsize) :
    ∃ items next sets, ev.fdhash.enumerate ev.fdhash.count ev.fdhash.first = .ok items ∧
      watchItems fdSetsize ev {} items = .ok (next, sets) ∧ WatchedSets fdSetsize registry records ev next sets := by
  obtain ⟨items, fds, ended, of, every⟩ := table_items registers
  obtain ⟨next, sets, walk, walked⟩ := watch_items (walked_nil registers) of fun fd _ => low fd
  rw [List.append_nil] at walked
  have every_asked : ∀ fd, asked registry fd = true → fd ∈ fds.reverse := by
    intro fd asks
    obtain ⟨address, record⟩ := asked_record registers asks
    exact List.mem_reverse.mpr (every fd address record)
  have set_eq : ∀ (set : Nat → Bool) (asks : BitVec 32 → Bool), (∀ fd, asks fd = true → asked registry fd = true) →
      (∀ number, set number = true ↔ ∃ fd ∈ fds.reverse, asks fd = true ∧ fd.toNat = number) →
      ∀ fd : BitVec 32, set fd.toNat = asks fd := by
    intro set asks within inside fd
    rw [Bool.eq_iff_iff, inside]
    constructor
    · rintro ⟨fd', -, asks', same⟩
      rwa [← BitVec.eq_of_toNat_eq same]
    · exact fun asks' => ⟨fd, every_asked fd (within fd asks'), asks', rfl⟩
  refine ⟨items, next, sets, ended, walk, { registers := walked.registers, table := walked.table, unready := ?_, rfds := ?_,
                                            wfds := ?_, above := ?_, highest := ?_ }⟩
  · intro fd address fdinfo record
    exact walked.unready fd (List.mem_reverse.mpr (every fd address record)) address fdinfo record
  · exact set_eq _ _ (fun fd asks => by simp [asked, asks]) walked.rfds
  · exact set_eq _ _ (fun fd asks => by simp [asked, asks]) walked.wfds
  · exact fun fd asks => walked.above fd (every_asked fd asks) asks
  · exact walked.highest.imp_right fun ⟨fd, _, asks, same⟩ => ⟨fd, asks, same⟩

theorem walk_fails (registers : Registers fdSetsize ev registry records)
    (high : ∃ fd, asked registry fd = true ∧ fdSetsize ≤ fd.toNat) (reply : SelectReply) :
    eventSelectPoll fdSetsize ev reply = .error .beyondSet := by
  obtain ⟨items, fds, ended, of, every⟩ := table_items registers
  obtain ⟨fd, asks, above⟩ := high
  obtain ⟨address, record⟩ := asked_record registers asks
  have stops := watch_too_high (walked_nil registers) of ⟨fd, every fd address record, asks, above⟩
  rw [eventSelectPoll, ended]
  show Except.bind (watchItems fdSetsize ev {} items) _ = _
  rw [stops]
  rfl

end Walking

end ZapeProof
