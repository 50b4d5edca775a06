import Zape.Events.Ready

/-! Rounds of the loop with `select`: any run before a poll, the poll, and the events that the loop reads after it. -/
namespace ZapeProof

open Machine ZapeModel

def callRegistry (fdSetsize : Nat) (registry : Registry) : SelectCall → Registry
  | .op op => opRegistry fdSetsize registry op
  | .poll _ => registry
  | .revent _ => registry

def NewDescriptor (registry : Registry) : SelectCall → Prop
  | .op (.add fd _ _) => registry fd = none
  | _ => True

instance (registry : Registry) : ∀ call, Decidable (NewDescriptor registry call)
  | .op (.add fd _ _) => inferInstanceAs (Decidable (registry fd = none))
  | .op (.mod _ _) => inferInstanceAs (Decidable True)
  | .op (.del _) => inferInstanceAs (Decidable True)
  | .poll _ => inferInstanceAs (Decidable True)
  | .revent _ => inferInstanceAs (Decidable True)

/-- The kernel does not hand out the number of a descriptor that is registered: those of a run are a set. -/
def RegistersNew (fdSetsize : Nat) (registry : Registry) : List SelectCall → Prop
  | [] => True
  | call :: calls => NewDescriptor registry call ∧ RegistersNew fdSetsize (callRegistry fdSetsize registry call) calls

def decideRegistersNew (fdSetsize : Nat) : ∀ (registry : Registry) calls, Decidable (RegistersNew fdSetsize registry calls)
  | _, [] => inferInstanceAs (Decidable True)
  | registry, call :: calls =>
    have := decideRegistersNew fdSetsize (callRegistry fdSetsize registry call) calls
    inferInstanceAs (Decidable (_ ∧ _))

instance (fdSetsize : Nat) (registry : Registry) (calls : List SelectCall) :
    Decidable (RegistersNew fdSetsize registry calls) :=
  decideRegistersNew fdSetsize registry calls

/-- What was registered in a run, from the start on. -/
def registryAfter (fdSetsize : Nat) (calls : List SelectCall) : Registry :=
  calls.foldl (callRegistry fdSetsize) fun _ => none

section Runs

variable {fdSetsize : Nat} {ev : SelectFdevent} {registry : Registry} {records : BitVec 32 → Option Nat}

theorem registers_init : Registers fdSetsize eventSelectInit (fun _ => none) fun _ => none where
  table := by
    obtain ⟨⟨order, layout⟩, agrees⟩ := @tabulates_init (BitVec 64) _ _ integerKey 8209 (by decide)
    refine ⟨fun _ => none, ⟨⟨order, ?_⟩, agrees⟩, by simp [HoldsRecords]⟩
    exact { double := layout.double, chains := layout.chains, nodup := layout.nodup, here := layout.here,
            below := layout.below, distinct := layout.distinct }
  cleaner := rfl
  described := by simp
  recorded := by simp
  accepted := by simp
  apart := by simp
  below := by simp
  freed := by
    intro address freed
    cases freed

/-- Whatever record an entry of the events still points to. -/
theorem registers_unready {address : Nat} {fdinfo : SelectFdinfo} (registers : Registers fdSetsize ev registry records)
    (info : ev.info address = some fdinfo) :
    Registers fdSetsize { ev with info := Function.update ev.info address (some fdinfo.unready) } registry records := by
  by_cases held : ∃ fd, records fd = some address
  · obtain ⟨fd, record⟩ := held
    obtain ⟨fdinfo', info', -, kept⟩ :=
      change_kept registers record fun registration fdinfo => @describes_unready fdinfo registration fd
    cases info.symm.trans info'
    exact kept
  · refine { registers with described := ?_ }
    intro fd other record
    have apart : other ≠ address := by
      rintro rfl
      exact held ⟨fd, record⟩
    obtain ⟨registration, fdinfo', registered, info', describes⟩ := registers.described fd other record
    exact ⟨registration, fdinfo', registered, (Function.update_of_ne apart _ _).trans info', describes⟩

/-- Where `select` fails, if it is called. -/
theorem poll_failed (int : fdSetsize < 2 ^ 31) (registers : Registers fdSetsize ev registry records)
    (low : ∀ fd, asked registry fd = true → fd.toNat < fdSetsize) :
    if selects fdSetsize registry then eventSelectPoll fdSetsize ev .failed = .error .exited
    else ∃ next, eventSelectPoll fdSetsize ev .failed = .ok (next, 0) ∧ Registers fdSetsize next registry records ∧
      SameTable ev next := by
  obtain ⟨items, middle, sets, ended, walk, watched⟩ := walk_ends registers low
  by_cases selected : sets.maxfd = 0
  · rw [if_neg fun select => (selects_iff int watched low).mp select selected]
    refine ⟨middle, ?_, watched.registers, watched.table⟩
    simp only [eventSelectPoll, ended, Except.mapError, Except.bind, walk]
    exact if_pos selected
  · rw [if_pos ((selects_iff int watched low).mpr selected)]
    simp only [eventSelectPoll, ended, Except.mapError, Except.bind, walk]
    exact if_neg selected

theorem low_of_poll {reply : SelectReply} {result : SelectFdevent × Nat} (registers : Registers fdSetsize ev registry records)
    (polled : eventSelectPoll fdSetsize ev reply = .ok result) : ∀ fd, asked registry fd = true → fd.toNat < fdSetsize := by
  intro fd asks
  by_contra high
  have stopped := walk_fails registers ⟨fd, asks, Nat.not_lt.mp high⟩ reply
  cases stopped.symm.trans polled

theorem poll_registers {reply : SelectReply} {next : SelectFdevent} {count : Nat} (int : fdSetsize < 2 ^ 31)
    (registers : Registers fdSetsize ev registry records) (polled : eventSelectPoll fdSetsize ev reply = .ok (next, count)) :
    Registers fdSetsize next registry records ∧ SameTable ev next := by
  have low := low_of_poll registers polled
  cases reply with
  | failed =>
    have ends := poll_failed int registers low
    split at ends
    · cases ends.symm.trans polled
    · obtain ⟨middle, ended, kept, table⟩ := ends
      cases ended.symm.trans polled
      exact ⟨kept, table⟩
  | ready readable writable =>
    obtain ⟨middle, ended, left⟩ := @poll_ready _ _ _ _ readable writable int registers low
    cases ended.symm.trans polled
    exact ⟨left.registers, left.table⟩

/-- No record that the table holds was freed. -/
def Live (ev : SelectFdevent) (records : BitVec 32 → Option Nat) : Prop :=
  ∀ fd address, records fd = some address → ev.freed address = false

theorem live_table {next : SelectFdevent} (live : Live ev records) (table : SameTable ev next) : Live next records := by
  intro fd address record
  have before := live fd address record
  rw [SelectFdevent.freed] at before ⊢
  rw [table.fdhash]
  exact before

/-- Only a descriptor that was registered already gets a record that is freed at once. -/
theorem live_op {next : SelectFdevent} {op : SelectOp} (registers : Registers fdSetsize ev registry records)
    (live : Live ev records) (new : NewDescriptor registry (.op op))
    (stepped : OpStepped fdSetsize ev next registry records op) :
    Live next (opRecords fdSetsize ev records op) := by
  intro fd address record
  by_contra freed
  rw [Bool.not_eq_false, stepped.freed] at freed
  cases op with
  | add fd' evd bitadd =>
    have unrecorded : records fd' = none := by
      by_contra held
      obtain ⟨old, record'⟩ := Option.ne_none_iff_exists'.mp held
      obtain ⟨registration, -, registered, -⟩ := registers.described fd' old record'
      cases registered.symm.trans new
    have nothing : opFrees fdSetsize ev records (.add fd' evd bitadd) = none := by
      rw [opFrees, unrecorded, Option.map_none, ite_self]
    rw [nothing] at freed
    have before : ev.freed address = true := freed.resolve_right (by simp)
    rw [opRecords] at record
    split at record
    · by_cases same : fd = fd'
      · rw [same, Function.update_self] at record
        cases record
        exact Nat.lt_irrefl _ (registers.freed _ before)
      · rw [Function.update_of_ne same] at record
        rw [live fd address record] at before
        cases before
    · rw [live fd address record] at before
      cases before
  | mod fd' bitadd =>
    have before : ev.freed address = true := freed.resolve_right (by simp [opFrees])
    rw [live fd address record] at before
    cases before
  | del fd' =>
    by_cases same : fd = fd'
    · rw [opRecords, same, Function.update_self] at record
      cases record
    · rw [opRecords, Function.update_of_ne same] at record
      rw [live fd address record] at freed
      exact same (registers.apart _ _ _ record (freed.resolve_left (by simp)))

/-- A step of a run: the records are those of the descriptors that it registered, and none of them was freed. -/
theorem call_registers {call : SelectCall} {next : SelectFdevent} (int : fdSetsize < 2 ^ 31)
    (registers : Registers fdSetsize ev registry records) (live : Live ev records) (new : NewDescriptor registry call)
    (stepped : call.step fdSetsize ev = .ok next) :
    ∃ records', Registers fdSetsize next (callRegistry fdSetsize registry call) records' ∧ Live next records' := by
  cases call with
  | op op =>
    obtain ⟨result, ended, step⟩ := op_stepped registers op
    cases ended.symm.trans stepped
    exact ⟨_, step.registers, live_op registers live new step⟩
  | poll reply =>
    obtain ⟨⟨result, count⟩, polled, rfl⟩ := returned_map stepped
    obtain ⟨kept, table⟩ := poll_registers int registers polled
    exact ⟨records, kept, live_table live table⟩
  | revent i =>
    obtain ⟨⟨result, bitev⟩, ended, rfl⟩ := returned_map stepped
    obtain ⟨address, -, ended⟩ := returned_bind ended
    obtain ⟨fdinfo, read, ended⟩ := returned_bind ended
    obtain ⟨changed, change, ended⟩ := returned_map ended
    cases ended
    have info : ev.info address = some fdinfo := by
      rw [SelectFdevent.read] at read
      split at read
      · cases read
      · rename_i held
        cases read
        exact held
    rw [SelectFdevent.change, read] at change
    cases change
    exact ⟨records, registers_unready registers info, live_table live ⟨rfl, rfl⟩⟩

theorem run_registers {calls : List SelectCall} {last : SelectFdevent} (int : fdSetsize < 2 ^ 31)
    (registers : Registers fdSetsize ev registry records) (live : Live ev records)
    (new : RegistersNew fdSetsize registry calls) (reached : runAll (SelectCall.step fdSetsize) ev calls = .ok last) :
    ∃ records', Registers fdSetsize last (calls.foldl (callRegistry fdSetsize) registry) records' ∧ Live last records' := by
  induction calls generalizing ev registry records with
  | nil =>
    cases reached
    exact ⟨records, registers, live⟩
  | cons call calls ih =>
    rw [runAll] at reached
    split at reached
    · cases reached
    · rename_i next stepped
      obtain ⟨records', registers', live'⟩ := call_registers int registers live new.1 stepped
      exact ih registers' live' new.2 reached

end Runs

section Reading

variable {fdSetsize : Nat} {ev : SelectFdevent} {registry : Registry} {records : BitVec 32 → Option Nat}

/-- One turn of the loop. -/
theorem loop_turn {callbacks : Nat → List SelectOp} {i address : Nat} {is : List Nat} {fdinfo : SelectFdinfo}
    (entry : ev.events[i]? = some (some address)) (info : ev.info address = some fdinfo) :
    loopEvents fdSetsize callbacks ev (i :: is) =
      (runAll (SelectOp.step fdSetsize) { ev with info := Function.update ev.info address (some fdinfo.unready) }
        (callbacks i)).bind fun changed => (loopEvents fdSetsize callbacks changed is).map fun (last, events) =>
          (last, { address, freed := ev.freed address, evd := fdinfo.ptr, bitev := fdinfo.bitret } :: events) := by
  have here : selectEntry ev i = .ok address := by
    rw [selectEntry, entry]
  have read : ev.read address = .ok fdinfo := by
    rw [SelectFdevent.read, info]
  have change : ev.change address SelectFdinfo.unready =
      .ok { ev with info := Function.update ev.info address (some fdinfo.unready) } := by
    rw [SelectFdevent.change, read]
    rfl
  have evd : eventSelectGetEvd ev i = .ok fdinfo.ptr := by
    rw [eventSelectGetEvd, here]
    show Except.map _ (ev.read address) = _
    rw [read]
    rfl
  have revent : eventSelectRevent ev i =
      .ok ({ ev with info := Function.update ev.info address (some fdinfo.unready) }, fdinfo.bitret) := by
    rw [eventSelectRevent, here]
    show Except.bind (ev.read address) _ = _
    rw [read]
    show Except.map _ (ev.change address SelectFdinfo.unready) = _
    rw [change]
    rfl
  rw [loopEvents, here, evd, revent]
  rfl

/-- Where the callbacks leave the events alone, each entry shows what it was registered with and is ready for. -/
theorem loop_plain {readable writable : Nat → Bool} {listed : List HashContent} {is : List Nat} {fds : List (BitVec 32)}
    (registers : Registers fdSetsize ev registry records) (held : ev.events = listed)
    (entries : List.Forall₂ (fun i fd => ∃ address, records fd = some address ∧ listed[i]? = some (some address)) is fds)
    (nodup : fds.Nodup)
    (bits : ∀ fd ∈ fds, ∀ address fdinfo, records fd = some address → ev.info address = some fdinfo →
      fdinfo.bitret = readyFor registry readable writable fd) :
    ∃ last events, loopEvents fdSetsize (fun _ => []) ev is = .ok (last, events) ∧
      events.map (fun event => (some event.evd, event.bitev)) =
        fds.map fun fd => ((registry fd).map (·.evd), readyFor registry readable writable fd) := by
  induction entries generalizing ev with
  | nil => exact ⟨ev, [], rfl, rfl⟩
  | @cons i fd is fds here later ih =>
    obtain ⟨address, record, entry⟩ := here
    rw [← held] at entry
    obtain ⟨registration, fdinfo, registered, info, describes⟩ := registers.described fd address record
    rw [List.nodup_cons] at nodup
    have left : ∀ fd' ∈ fds, ∀ address' fdinfo', records fd' = some address' →
        Function.update ev.info address (some fdinfo.unready) address' = some fdinfo' →
        fdinfo'.bitret = readyFor registry readable writable fd' := by
      intro fd' member address' fdinfo' record' info'
      have apart : address' ≠ address := by
        rintro rfl
        exact nodup.1 (registers.apart _ _ _ record record' ▸ member)
      rw [Function.update_of_ne apart] at info'
      exact bits fd' (by simp [member]) address' fdinfo' record' info'
    obtain ⟨last, events, ended, shown⟩ := @ih { ev with info := Function.update ev.info address (some fdinfo.unready) }
      (registers_unready registers info) held nodup.2 left
    refine ⟨last, { address, freed := ev.freed address, evd := fdinfo.ptr, bitev := fdinfo.bitret } :: events, ?_, ?_⟩
    · rw [loop_turn entry info]
      show Except.map _ (loopEvents _ _ _ _) = _
      rw [ended]
      rfl
    · rw [List.map_cons, List.map_cons, shown, registered, describes.ptr, bits fd (by simp) address fdinfo record info]
      rfl

end Reading

section Exact

variable {fdSetsize : Nat} {ev : SelectFdevent} {registry : Registry} {records : BitVec 32 → Option Nat}

/-- A poll lists the descriptors that are reported, within the events and the sets, and none of its records was freed. -/
def PollsExactly (fdSetsize : Nat) (registry : Registry) (ev : SelectFdevent) : SelectReply → Prop
  | .failed =>
    if selects fdSetsize registry then eventSelectPoll fdSetsize ev .failed = .error .exited
    else ∃ next, eventSelectPoll fdSetsize ev .failed = .ok (next, 0)
  | .ready readable writable =>
    (∀ (fd : BitVec 32) address, ev.seek (fd.signExtend 64) = .ok (some address) → ev.freed address = false) ∧
    (reported fdSetsize registry readable writable).length ≤ fdSetsize ∧
    ∃ next last events,
      eventSelectPoll fdSetsize ev (.ready readable writable) =
        .ok (next, (reported fdSetsize registry readable writable).length) ∧
      loopEvents fdSetsize (fun _ => []) next (List.range (reported fdSetsize registry readable writable).length) =
        .ok (last, events) ∧
      events.map (fun event => (some event.evd, event.bitev)) =
        (reported fdSetsize registry readable writable).map fun fd =>
          ((registry fd).map (·.evd), readyFor registry readable writable fd)

theorem reported_length (readable writable : Nat → Bool) :
    (reported fdSetsize registry readable writable).length ≤ fdSetsize := by
  rw [reported]
  split
  · refine (List.length_filter_le _ _).trans ?_
    rw [List.length_map, List.length_range]
  · exact Nat.zero_le _

theorem reported_nodup (int : fdSetsize < 2 ^ 31) (readable writable : Nat → Bool) :
    (reported fdSetsize registry readable writable).Nodup := by
  rw [reported]
  split
  · apply List.Nodup.filter
    apply List.Nodup.map_on ?_ List.nodup_range
    intro number member number' member' same
    have numbers := congrArg BitVec.toNat same
    rw [List.mem_range] at member member'
    rw [BitVec.toNat_ofNat, BitVec.toNat_ofNat] at numbers
    omega
  · exact List.nodup_nil

theorem reported_asked {readable writable : Nat → Bool} {fd : BitVec 32}
    (member : fd ∈ reported fdSetsize registry readable writable) : asked registry fd = true := by
  rw [reported] at member
  split at member
  · have here := (List.mem_filter.mp member).2
    rw [isReported, Bool.or_eq_true] at here
    exact here.elim (@asked_of_ready registry readable writable fd).1 (@asked_of_ready registry readable writable fd).2
  · cases member

theorem polls_exactly (int : fdSetsize < 2 ^ 31) (registers : Registers fdSetsize ev registry records)
    (live : Live ev records)
    (low : ∀ fd, asked registry fd = true → fd.toNat < fdSetsize) (reply : SelectReply) :
    PollsExactly fdSetsize registry ev reply := by
  cases reply with
  | failed =>
    have ends := poll_failed int registers low
    rw [PollsExactly]
    split at ends
    · rename_i select
      rwa [if_pos select]
    · rename_i unselected
      obtain ⟨next, ended, -⟩ := ends
      rw [if_neg unselected]
      exact ⟨next, ended⟩
  | ready readable writable =>
    refine ⟨?_, reported_length readable writable, ?_⟩
    · intro fd address sought
      rw [seek_records registers] at sought
      exact live fd address (Except.ok.inj sought)
    · obtain ⟨next, polled, left⟩ := @poll_ready _ _ _ _ readable writable int registers low
      have entries : List.Forall₂ (fun i fd => ∃ address, records fd = some address ∧ next.events[i]? = some (some address))
          (List.range (reported fdSetsize registry readable writable).length)
          (reported fdSetsize registry readable writable) := by
        rw [List.forall₂_iff_get]
        refine ⟨List.length_range, ?_⟩
        intro i inRange inList
        have here := List.getElem?_eq_getElem inList
        obtain ⟨address, record⟩ := asked_record left.registers (reported_asked (List.mem_of_getElem? here))
        have entry := left.entries i _ here
        rw [record] at entry
        refine ⟨address, record, ?_⟩
        simpa using entry
      obtain ⟨last, events, ended, shown⟩ :=
        loop_plain left.registers rfl entries (reported_nodup int readable writable) left.bits
      exact ⟨next, last, events, polled, ended, shown⟩

/-- The only number that `event_select_add` accepts beyond the sets is `FD_SETSIZE`. -/
theorem select_poll_exact_iff (fdSetsize : Nat) (int : fdSetsize < 2 ^ 31) (calls : List SelectCall) (ev : SelectFdevent)
    (new : RegistersNew fdSetsize (fun _ => none) calls)
    (reached : runAll (SelectCall.step fdSetsize) eventSelectInit calls = .ok ev) (reply : SelectReply) :
    PollsExactly fdSetsize (registryAfter fdSetsize calls) ev reply ↔
      asked (registryAfter fdSetsize calls) (BitVec.ofNat 32 fdSetsize) = false := by
  obtain ⟨records, registers, live⟩ := run_registers int registers_init (by intro _ _ record; cases record) new reached
  have low_iff : (∀ fd, asked (registryAfter fdSetsize calls) fd = true → fd.toNat < fdSetsize) ↔
      asked (registryAfter fdSetsize calls) (BitVec.ofNat 32 fdSetsize) = false := by
    constructor
    · intro low
      by_contra asks
      rw [Bool.not_eq_false] at asks
      have below := low _ asks
      rw [BitVec.toNat_ofNat] at below
      omega
    · intro unasked fd asks
      obtain ⟨address, record⟩ := asked_record registers asks
      have accepted := registers.accepted fd address record
      rw [acceptsFd, decide_eq_true_iff] at accepted
      have positive : fd.toInt = fd.toNat := by
        have value := BitVec.toInt_eq_toNat_cond fd
        have small := fd.isLt
        split at value <;> omega
      by_contra high
      have same : fd = BitVec.ofNat 32 fdSetsize := by
        apply BitVec.eq_of_toNat_eq
        rw [BitVec.toNat_ofNat]
        omega
      rw [← same, asks] at unasked
      cases unasked
  rw [← low_iff]
  constructor
  · intro exact fd asks
    by_contra high
    have stopped := walk_fails registers ⟨fd, asks, Nat.not_lt.mp high⟩ reply
    cases reply with
    | failed =>
      rw [PollsExactly] at exact
      split at exact
      · cases stopped.symm.trans exact
      · obtain ⟨next, ended⟩ := exact
        cases stopped.symm.trans ended
    | ready readable writable =>
      obtain ⟨-, -, next, -, -, ended, -⟩ := exact
      cases stopped.symm.trans ended
  · exact fun low => polls_exactly int registers live low reply

/-- The highest descriptor is registered for reading. -/
def highest : List SelectCall := [.op (.add 1024#32 (.socket 0) eventRead)]

theorem highest_not_exact :
    ∃ ev, runAll (SelectCall.step 1024) eventSelectInit highest = .ok ev ∧ RegistersNew 1024 (fun _ => none) highest ∧
      ¬ PollsExactly 1024 (registryAfter 1024 highest) ev (.ready (fun _ => false) fun _ => false) := by
  refine ⟨_, rfl, by decide, ?_⟩
  rintro ⟨-, -, next, -, -, polled, -⟩
  have stopped : (Except.error .beyondSet : Except SelectFault (SelectFdevent × Nat)) = .ok _ := polled
  cases stopped

theorem three_exact :
    ∃ ev, runAll (SelectCall.step 1024) eventSelectInit
        [.op (.add 5#32 (.socket 0) eventRead), .op (.add 3#32 (.socket 1) (eventRead ||| eventWrite)),
          .op (.add 1024#32 (.socket 2) 0#32)] = .ok ev ∧
      PollsExactly 1024 (registryAfter 1024 [.op (.add 5#32 (.socket 0) eventRead),
        .op (.add 3#32 (.socket 1) (eventRead ||| eventWrite)), .op (.add 1024#32 (.socket 2) 0#32)]) ev
        (.ready (fun _ => true) fun _ => true) :=
  ⟨_, rfl, (select_poll_exact_iff 1024 (by decide) _ _ (by decide) rfl _).mpr rfl⟩

end Exact

end ZapeProof
