import Zape.Events.Polling

/-! What a poll with `select` reports, and what the loop reads of it. -/
namespace ZapeProof

open Machine ZapeModel

section Reported

variable (fdSetsize : Nat) (registry : Registry) (readable writable : Nat → Bool)

/-- `select` is only called where some descriptor other than zero is watched. -/
def selects : Bool := (List.range fdSetsize).any fun number => 0 < number && asked registry (BitVec.ofNat 32 number)

/-- The descriptors that `select` reports for a direction that they asked for, in increasing order. -/
def reported : List (BitVec 32) :=
  if selects fdSetsize registry then
    ((List.range fdSetsize).map (BitVec.ofNat 32)).filter (isReported registry readable writable)
  else []

end Reported

section Marking

variable {fdSetsize : Nat} {start ev : SelectFdevent} {registry : Registry} {records : BitVec 32 → Option Nat}
  {readable writable : Nat → Bool} {sets : SelectSets} {done : List Nat}

/-- The sets that `select` leaves. -/
structure Chosen (registry : Registry) (readable writable : Nat → Bool) (sets : SelectSets) : Prop where
  rfds : ∀ fd : BitVec 32, sets.rfds fd.toNat = readyRead registry readable fd
  wfds : ∀ fd : BitVec 32, sets.wfds fd.toNat = readyWrite registry writable fd

/-- The records once those of these descriptors are marked. -/
structure Marked (fdSetsize : Nat) (registry : Registry) (records : BitVec 32 → Option Nat) (readable writable : Nat → Bool)
    (done : List Nat) (start ev : SelectFdevent) : Prop where
  registers : Registers fdSetsize ev registry records
  table : SameTable start ev
  bits : ∀ fd address fdinfo, records fd = some address → ev.info address = some fdinfo →
    fdinfo.bitret = if fd.toNat ∈ done then readyFor registry readable writable fd else 0#32

theorem seek_number (registers : Registers fdSetsize ev registry records) {number : Nat} (int : number < 2 ^ 31) :
    ev.seek (BitVec.ofNat 64 number) = .ok (records (BitVec.ofNat 32 number)) := by
  have positive : (BitVec.ofNat 32 number).msb = false := by
    rw [BitVec.msb_eq_false_iff_two_mul_lt, BitVec.toNat_ofNat]
    omega
  have key : (BitVec.ofNat 32 number).signExtend 64 = BitVec.ofNat 64 number := by
    rw [BitVec.signExtend_eq_setWidth_of_msb_false positive]
    apply BitVec.eq_of_toNat_eq
    rw [BitVec.toNat_setWidth, BitVec.toNat_ofNat, BitVec.toNat_ofNat]
    omega
  rw [← key]
  exact seek_records registers _

theorem marked_next {next : SelectFdevent} {fd : BitVec 32}
    (marked : Marked fdSetsize registry records readable writable done start ev)
    (registers : Registers fdSetsize next registry records) (table : SameTable ev next)
    (others : ∀ address, records fd ≠ some address → next.info address = ev.info address)
    (own : ∀ address fdinfo, records fd = some address → next.info address = some fdinfo →
      fdinfo.bitret = readyFor registry readable writable fd) :
    Marked fdSetsize registry records readable writable (fd.toNat :: done) start next where
  registers := registers
  table := marked.table.trans table
  bits := by
    intro fd' address fdinfo record info
    by_cases same : fd' = fd
    · subst same
      rw [if_pos (by simp)]
      exact own address fdinfo record info
    · have apart : records fd ≠ some address := fun record' => same (registers.apart _ _ _ record record')
      have differ : fd'.toNat ≠ fd.toNat := fun equal => same (BitVec.eq_of_toNat_eq equal)
      rw [others address apart] at info
      rw [marked.bits fd' address fdinfo record info]
      simp [differ]

theorem mark_kept {bit : BitVec 8} {fd : BitVec 32} {address : Nat}
    (ready : bit = kReadyForReadEvent ∨ bit = kReadyForWriteEvent)
    (registers : Registers fdSetsize ev registry records) (record : records fd = some address) :
    ∃ fdinfo, ev.info address = some fdinfo ∧
      ev.change address (·.mark bit) = .ok { ev with info := Function.update ev.info address (some (fdinfo.mark bit)) } ∧
      Registers fdSetsize { ev with info := Function.update ev.info address (some (fdinfo.mark bit)) } registry records :=
  change_kept registers record fun _ _ => describes_mark ready

theorem asked_of_ready {fd : BitVec 32} :
    (readyRead registry readable fd = true → asked registry fd = true) ∧
      (readyWrite registry writable fd = true → asked registry fd = true) := by
  simp only [readyRead, readyWrite, asked, Bool.and_eq_true, Bool.or_eq_true]
  exact ⟨fun ready => .inl ready.1, fun ready => .inr ready.1⟩

theorem mark_one {fd : BitVec 32} (int : fdSetsize < 2 ^ 31) (chosen : Chosen registry readable writable sets)
    (marked : Marked fdSetsize registry records readable writable done start ev) (unmarked : fd.toNat ∉ done)
    (low : fd.toNat < fdSetsize) :
    ∃ next, markReady fdSetsize sets ev fd.toNat = .ok next ∧
      Marked fdSetsize registry records readable writable (fd.toNat :: done) start next := by
  have inRead : fdIsset fdSetsize sets.rfds fd.toNat = .ok (readyRead registry readable fd) := by
    rw [fdIsset, if_pos low, chosen.rfds]
  have inWrite : fdIsset fdSetsize sets.wfds fd.toNat = .ok (readyWrite registry writable fd) := by
    rw [fdIsset, if_pos low, chosen.wfds]
  have sought : ev.seek (BitVec.ofNat 64 fd.toNat) = .ok (records fd) := by
    rw [seek_number marked.registers (by omega), BitVec.ofNat_toNat, BitVec.setWidth_eq]
  have unready : ∀ address fdinfo, records fd = some address → ev.info address = some fdinfo → fdinfo.bitret = 0#32 := by
    intro address fdinfo record info
    rw [marked.bits fd address fdinfo record info, if_neg unmarked]
  have others : ∀ {address} (fdinfo : SelectFdinfo), records fd = some address →
      ∀ other, records fd ≠ some other → Function.update ev.info address (some fdinfo) other = ev.info other := by
    intro address fdinfo record other apart
    exact Function.update_of_ne (fun same => apart (record.trans (congrArg some same.symm))) _ _
  cases read : readyRead registry readable fd with
  | true =>
    obtain ⟨address, record⟩ := asked_record marked.registers ((@asked_of_ready registry readable writable fd).1 read)
    obtain ⟨fdinfo, info, change, registers⟩ := mark_kept (.inl rfl) marked.registers record
    cases write : readyWrite registry writable fd with
    | true =>
      obtain ⟨fdinfo', info', change', registers'⟩ := mark_kept (.inr rfl) registers record
      cases (Function.update_self _ _ _).symm.trans info'
      refine ⟨_, ?_, marked_next marked registers' ⟨rfl, rfl⟩ ?_ ?_⟩
      · simp only [markReady, inRead, inWrite, read, write, Except.bind, sought, record, change, if_true]
        exact change'
      · intro other apart
        have differ : other ≠ address := fun same => apart (record.trans (congrArg some same.symm))
        exact (Function.update_of_ne differ _ _).trans (others _ record other apart)
      · intro address' fdinfo' record' info'
        cases record.symm.trans record'
        cases (Function.update_self _ _ _).symm.trans info'
        rw [bitret_mark_write, bitret_mark_read, unready address fdinfo record info, readyFor, if_pos read, if_pos write]
        rfl
    | false =>
      refine ⟨_, ?_, marked_next marked registers ⟨rfl, rfl⟩ (others _ record) ?_⟩
      · simp only [markReady, inRead, inWrite, read, write, Except.bind, sought, record, change, if_true]
        rfl
      · intro address' fdinfo' record' info'
        cases record.symm.trans record'
        cases (Function.update_self _ _ _).symm.trans info'
        rw [bitret_mark_read, unready address fdinfo record info, readyFor, if_pos read, write]
        rfl
  | false =>
    cases write : readyWrite registry writable fd with
    | true =>
      obtain ⟨address, record⟩ := asked_record marked.registers ((@asked_of_ready registry readable writable fd).2 write)
      obtain ⟨fdinfo, info, change, registers⟩ := mark_kept (.inr rfl) marked.registers record
      refine ⟨_, ?_, marked_next marked registers ⟨rfl, rfl⟩ (others _ record) ?_⟩
      · simp only [markReady, inRead, inWrite, read, write, Except.bind, sought, record, change, if_true]
        rfl
      · intro address' fdinfo' record' info'
        cases record.symm.trans record'
        cases (Function.update_self _ _ _).symm.trans info'
        rw [bitret_mark_write, unready address fdinfo record info, readyFor, read, if_pos write]
        rfl
    | false =>
      refine ⟨ev, ?_, marked_next marked marked.registers ⟨rfl, rfl⟩ (fun _ _ => rfl) ?_⟩
      · simp only [markReady, inRead, inWrite, read, write, Except.bind]
        rfl
      · intro address fdinfo record info
        rw [unready address fdinfo record info, readyFor, read, write]
        rfl

theorem mark_all {fds : List (BitVec 32)} (int : fdSetsize < 2 ^ 31) (chosen : Chosen registry readable writable sets)
    (marked : Marked fdSetsize registry records readable writable done start ev)
    (nodup : (fds.map BitVec.toNat).Nodup) (unmarked : ∀ fd ∈ fds, fd.toNat ∉ done) (low : ∀ fd ∈ fds, fd.toNat < fdSetsize) :
    ∃ next, eachFd (markReady fdSetsize sets) ev (fds.map BitVec.toNat) = .ok next ∧
      Marked fdSetsize registry records readable writable ((fds.map BitVec.toNat).reverse ++ done) start next := by
  induction fds generalizing ev done with
  | nil => exact ⟨ev, rfl, marked⟩
  | cons fd fds ih =>
    rw [List.map_cons, List.nodup_cons] at nodup
    obtain ⟨middle, here, kept⟩ := mark_one int chosen marked (unmarked fd (by simp)) (low fd (by simp))
    have later : ∀ fd' ∈ fds, fd'.toNat ∉ fd.toNat :: done := by
      intro fd' member inside
      rcases List.mem_cons.mp inside with same | before
      · exact nodup.1 (same ▸ List.mem_map_of_mem member)
      · exact unmarked fd' (by simp [member]) before
    obtain ⟨next, ended, all⟩ := ih kept nodup.2 later fun fd' member => low fd' (by simp [member])
    refine ⟨next, ?_, ?_⟩
    · rw [List.map_cons, eachFd, here]
      exact ended
    · rw [List.map_cons, List.reverse_cons, List.append_assoc]
      exact all

/-- The events are the records of the descriptors that are left in the sets. -/
theorem push_all {fds : List (BitVec 32)} (int : fdSetsize < 2 ^ 31) (chosen : Chosen registry readable writable sets)
    (registers : Registers fdSetsize ev registry records) (low : ∀ fd ∈ fds, fd.toNat < fdSetsize)
    (room : ev.events.length + fds.length ≤ fdSetsize) :
    eachFd (pushReady fdSetsize sets) ev (fds.map BitVec.toNat) =
      .ok { ev with events := ev.events ++ (fds.filter (isReported registry readable writable)).map records } := by
  induction fds generalizing ev with
  | nil => simp [eachFd]
  | cons fd fds ih =>
    have inRead : fdIsset fdSetsize sets.rfds fd.toNat = .ok (readyRead registry readable fd) := by
      rw [fdIsset, if_pos (low fd (by simp)), chosen.rfds]
    have inWrite : fdIsset fdSetsize sets.wfds fd.toNat = .ok (readyWrite registry writable fd) := by
      rw [fdIsset, if_pos (low fd (by simp)), chosen.wfds]
    have sought : ev.seek (BitVec.ofNat 64 fd.toNat) = .ok (records fd) := by
      have small := low fd (by simp)
      rw [seek_number registers (by omega), BitVec.ofNat_toNat, BitVec.setWidth_eq]
    have lower : ∀ fd' ∈ fds, fd'.toNat < fdSetsize := fun fd' member => low fd' (by simp [member])
    rw [List.length_cons] at room
    rw [List.map_cons, eachFd]
    cases here : isReported registry readable writable fd with
    | false =>
      have skipped : pushReady fdSetsize sets ev fd.toNat = .ok ev := by
        simp only [pushReady, inRead, inWrite, Except.bind]
        exact if_neg (by rw [← isReported, here]; decide)
      rw [skipped, List.filter_cons_of_neg (by rw [here]; decide)]
      exact ih registers lower (by omega)
    | true =>
      have pushed : pushReady fdSetsize sets ev fd.toNat = .ok { ev with events := ev.events ++ [records fd] } := by
        simp only [pushReady, inRead, inWrite, Except.bind]
        rw [← isReported, here, if_pos rfl, if_pos (by omega), sought]
        rfl
      rw [pushed, List.filter_cons_of_pos here]
      have rest := @ih { ev with events := ev.events ++ [records fd] } { registers with } lower
        (by simp only [List.length_append, List.length_singleton]; omega)
      refine rest.trans ?_
      simp

end Marking

section Poll

variable {fdSetsize : Nat} {ev : SelectFdevent} {registry : Registry} {records : BitVec 32 → Option Nat}
  {readable writable : Nat → Bool} {sets : SelectSets}

theorem chosen_sets {next : SelectFdevent} (watched : WatchedSets fdSetsize registry records ev next sets) :
    Chosen registry readable writable (selectSets sets readable writable).1 where
  rfds fd := by
    show (sets.rfds fd.toNat && readable fd.toNat) = _
    rw [watched.rfds, readyRead]
  wfds fd := by
    show (sets.wfds fd.toNat && writable fd.toNat) = _
    rw [watched.wfds, readyWrite]

theorem selects_iff {next : SelectFdevent} (int : fdSetsize < 2 ^ 31)
    (watched : WatchedSets fdSetsize registry records ev next sets)
    (low : ∀ fd, asked registry fd = true → fd.toNat < fdSetsize) : selects fdSetsize registry = true ↔ sets.maxfd ≠ 0 := by
  rw [selects, List.any_eq_true]
  constructor
  · rintro ⟨number, member, here⟩
    rw [Bool.and_eq_true, decide_eq_true_iff] at here
    have below := watched.above _ here.2
    have small := List.mem_range.mp member
    rw [BitVec.toNat_ofNat] at below
    omega
  · intro some_fd
    obtain ⟨fd, asks, same⟩ := watched.highest.resolve_left some_fd
    refine ⟨fd.toNat, List.mem_range.mpr (low fd asks), ?_⟩
    rw [Bool.and_eq_true, decide_eq_true_iff, BitVec.ofNat_toNat, BitVec.setWidth_eq]
    exact ⟨by omega, asks⟩

/-- A poll looks at the descriptors up to the highest that is watched. -/
theorem reported_upto {next : SelectFdevent} (int : fdSetsize < 2 ^ 31)
    (watched : WatchedSets fdSetsize registry records ev next sets)
    (low : ∀ fd, asked registry fd = true → fd.toNat < fdSetsize) (selected : sets.maxfd ≠ 0) :
    reported fdSetsize registry readable writable =
      ((List.range (sets.maxfd + 1)).map (BitVec.ofNat 32)).filter (isReported registry readable writable) := by
  have bound : sets.maxfd + 1 ≤ fdSetsize := by
    obtain ⟨fd, asks, same⟩ := watched.highest.resolve_left selected
    have below := low fd asks
    omega
  obtain ⟨rest, size⟩ := Nat.exists_eq_add_of_le bound
  rw [reported, if_pos ((selects_iff int watched low).mpr selected), size, List.range_add, List.map_append,
    List.filter_append]
  have none_above : (((List.range rest).map (sets.maxfd + 1 + ·)).map (BitVec.ofNat 32)).filter
      (isReported registry readable writable) = [] := by
    rw [List.filter_eq_nil_iff]
    intro fd member reported
    rw [List.map_map] at member
    obtain ⟨number, inside, rfl⟩ := List.mem_map.mp member
    have asks : asked registry (BitVec.ofNat 32 (sets.maxfd + 1 + number)) = true := by
      rw [isReported, Bool.or_eq_true] at reported
      exact reported.elim (@asked_of_ready registry readable writable _).1 (@asked_of_ready registry readable writable _).2
    have below := watched.above _ asks
    have small := List.mem_range.mp inside
    rw [BitVec.toNat_ofNat] at below
    omega
  rw [none_above, List.append_nil]

/-- What a poll leaves for the loop to read. -/
structure Polled (fdSetsize : Nat) (registry : Registry) (records : BitVec 32 → Option Nat) (readable writable : Nat → Bool)
    (ev next : SelectFdevent) : Prop where
  registers : Registers fdSetsize next registry records
  table : SameTable ev next
  entries : ∀ (i : Nat) fd, (reported fdSetsize registry readable writable)[i]? = some fd →
    next.events[i]? = some (records fd)
  bits : ∀ fd ∈ reported fdSetsize registry readable writable, ∀ address fdinfo, records fd = some address →
    next.info address = some fdinfo → fdinfo.bitret = readyFor registry readable writable fd

theorem numfds_iff {next : SelectFdevent} (watched : WatchedSets fdSetsize registry records ev next sets)
    (small : sets.maxfd < 2 ^ 31) :
    (selectSets sets readable writable).2 = 0 ↔
      ((List.range (sets.maxfd + 1)).map (BitVec.ofNat 32)).filter (isReported registry readable writable) = [] := by
  have chosen := @chosen_sets _ _ _ _ readable writable _ _ watched
  have counts : (selectSets sets readable writable).2 =
      (List.range (sets.maxfd + 1)).countP (selectSets sets readable writable).1.rfds +
      (List.range (sets.maxfd + 1)).countP (selectSets sets readable writable).1.wfds := rfl
  rw [counts, Nat.add_eq_zero_iff, List.countP_eq_zero, List.countP_eq_zero, List.filter_eq_nil_iff, ← forall₂_and]
  simp only [List.mem_map, forall_exists_index, and_imp, forall_apply_eq_imp_iff₂]
  apply forall₂_congr
  intro number member
  have inside := List.mem_range.mp member
  have here : (BitVec.ofNat 32 number).toNat = number := by
    rw [BitVec.toNat_ofNat]
    omega
  have read := chosen.rfds (BitVec.ofNat 32 number)
  have write := chosen.wfds (BitVec.ofNat 32 number)
  rw [here] at read write
  rw [read, write, isReported, Bool.or_eq_true, not_or]

theorem poll_ready (int : fdSetsize < 2 ^ 31) (registers : Registers fdSetsize ev registry records)
    (low : ∀ fd, asked registry fd = true → fd.toNat < fdSetsize) :
    ∃ next, eventSelectPoll fdSetsize ev (.ready readable writable) =
        .ok (next, (reported fdSetsize registry readable writable).length) ∧
      Polled fdSetsize registry records readable writable ev next := by
  obtain ⟨items, middle, sets, ended, walk, watched⟩ := walk_ends registers low
  have nothing : reported fdSetsize registry readable writable = [] →
      Polled fdSetsize registry records readable writable ev middle := by
    intro none_reported
    exact { registers := watched.registers, table := watched.table, entries := by simp [none_reported],
            bits := by simp [none_reported] }
  have chosen := @chosen_sets _ _ _ _ readable writable _ _ watched
  by_cases selected : sets.maxfd = 0
  · have unselected : reported fdSetsize registry readable writable = [] := by
      rw [reported, if_neg fun select => (selects_iff int watched low).mp select selected]
    refine ⟨middle, ?_, nothing unselected⟩
    rw [unselected]
    simp only [eventSelectPoll, ended, Except.mapError, Except.bind, walk]
    exact if_pos selected
  · have bound : sets.maxfd < fdSetsize := by
      obtain ⟨fd, asks, same⟩ := watched.highest.resolve_left selected
      exact same ▸ low fd asks
    let fds := (List.range (sets.maxfd + 1)).map (BitVec.ofNat 32)
    have upto : reported fdSetsize registry readable writable = fds.filter (isReported registry readable writable) :=
      reported_upto int watched low selected
    by_cases counted : (selectSets sets readable writable).2 = 0
    · have none_reported : reported fdSetsize registry readable writable = [] :=
        upto.trans ((numfds_iff watched (by omega)).mp counted)
      refine ⟨middle, ?_, nothing none_reported⟩
      rw [none_reported]
      simp only [eventSelectPoll, ended, Except.mapError, Except.bind, walk]
      rw [if_neg selected, if_pos counted]
      rfl
    · have numbers : fds.map BitVec.toNat = List.range (sets.maxfd + 1) := by
        rw [List.map_map]
        refine (List.map_congr_left ?_).trans (List.map_id _)
        intro number member
        have inside := List.mem_range.mp member
        show (BitVec.ofNat 32 number).toNat = number
        rw [BitVec.toNat_ofNat]
        omega
      have lower : ∀ fd ∈ fds, fd.toNat < fdSetsize := by
        intro fd member
        have inside : fd.toNat ∈ List.range (sets.maxfd + 1) := numbers ▸ List.mem_map_of_mem member
        have small := List.mem_range.mp inside
        omega
      have unmarked : Marked fdSetsize registry records readable writable [] ev middle :=
        { registers := watched.registers, table := watched.table, bits := by simpa using watched.unready }
      obtain ⟨marked, marks, kept⟩ :=
        mark_all int chosen unmarked (numbers ▸ List.nodup_range) (fun _ _ => by simp) lower
      have events := @push_all _ { marked with events := [] } _ _ _ _ _ fds int chosen { kept.registers with } lower
        (by simp only [fds, List.length_nil, List.length_map, List.length_range]; omega)
      rw [numbers] at marks events
      refine ⟨{ marked with events := (reported fdSetsize registry readable writable).map records }, ?_,
        { registers := { kept.registers with }, table := ⟨kept.table.fdhash, kept.table.allocated⟩,
          entries := ?_, bits := ?_ }⟩
      · simp only [eventSelectPoll, ended, Except.mapError, Except.bind, walk]
        rw [if_neg selected, if_neg counted]
        have highest : (selectSets sets readable writable).1.maxfd = sets.maxfd := rfl
        rw [highest, marks]
        show Except.map _ (eachFd (pushReady fdSetsize (selectSets sets readable writable).1)
          { marked with events := [] } _) = _
        rw [events, ← upto]
        simp only [Except.map, List.nil_append, List.length_map]
      · intro i fd here
        show ((reported fdSetsize registry readable writable).map records)[i]? = _
        rw [List.getElem?_map, here, Option.map_some]
      · intro fd member address fdinfo record info
        rw [upto] at member
        have inside : fd.toNat ∈ (fds.map BitVec.toNat).reverse ++ [] := by
          rw [List.append_nil, List.mem_reverse]
          exact List.mem_map_of_mem (List.mem_filter.mp member).1
        rw [kept.bits fd address fdinfo record info, if_pos inside]

end Poll

end ZapeProof
