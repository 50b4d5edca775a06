import Zape.Events.Rounds

/-! What the callbacks of one round do to the records that its later events still point to. -/
namespace ZapeProof

open Machine ZapeModel

/-- The steps that take a descriptor's record out of the table. -/
def touches (fdSetsize : Nat) (fd : BitVec 32) : SelectOp → Bool
  | .add other _ _ => acceptsFd fdSetsize other && other == fd
  | .mod _ _ => false
  | .del other => other == fd

/-- What the callbacks of the events before this one do, in order. -/
def earlier (callbacks : Nat → List SelectOp) (j : Nat) : List SelectOp := (List.range j).flatMap callbacks

/-- Where a record is once this was the first step that took it out of the table: an add replaces it, and nothing frees it
    then. -/
def Placed (ev : SelectFdevent) (records : BitVec 32 → Option Nat) (fd : BitVec 32) (address : Nat) : Option SelectOp → Prop
  | none => records fd = some address ∧ ev.freed address = false
  | some (.del _) => ev.freed address = true
  | some _ => (∀ other, records other ≠ some address) ∧ address < ev.allocated ∧ ev.freed address = false

section Steps

variable {fdSetsize : Nat} {ev next : SelectFdevent} {registry : Registry} {records : BitVec 32 → Option Nat}
  {fd : BitVec 32} {address : Nat}

theorem spared_step {op : SelectOp} (stepped : OpStepped fdSetsize ev next registry records op)
    (unfreed : ev.freed address = false) (spares : opFrees fdSetsize ev records op ≠ some address) :
    next.freed address = false := by
  by_contra freed
  rw [Bool.not_eq_false, stepped.freed, unfreed] at freed
  exact freed.elim (by simp) spares

/-- An add frees no record but a new one. -/
theorem add_spares {other : BitVec 32} {evd : EventDescriptor} {bitadd : BitVec 32} (below : address < ev.allocated) :
    opFrees fdSetsize ev records (.add other evd bitadd) ≠ some address := by
  rw [opFrees]
  split
  · intro frees
    obtain ⟨-, -, same⟩ := Option.map_eq_some_iff.mp frees
    omega
  · simp

theorem placed_step {first : Option SelectOp} {op : SelectOp} (registers : Registers fdSetsize ev registry records)
    (stepped : OpStepped fdSetsize ev next registry records op) (placed : Placed ev records fd address first) :
    Placed next (opRecords fdSetsize ev records op) fd address
      (first.or (if touches fdSetsize fd op then some op else none)) := by
  cases first with
  | none =>
    obtain ⟨record, unfreed⟩ := placed
    have below := registers.below fd address record
    rw [Option.none_or]
    cases op with
    | add other evd bitadd =>
      have alive := spared_step stepped unfreed (add_spares below)
      cases accepted : acceptsFd fdSetsize other with
      | false =>
        rw [touches, accepted, Bool.false_and, if_neg (by decide), opRecords, accepted]
        exact ⟨record, alive⟩
      | true =>
        rw [touches, accepted, Bool.true_and, opRecords, if_pos accepted]
        by_cases same : other = fd
        · rw [if_pos (by simp [same])]
          refine ⟨?_, below.trans_le stepped.allocated, alive⟩
          intro fd' record'
          by_cases here : fd' = other
          · rw [here, Function.update_self] at record'
            cases record'
            exact Nat.lt_irrefl _ below
          · rw [Function.update_of_ne here] at record'
            exact here ((registers.apart _ _ _ record' record).trans same.symm)
        · rw [if_neg (by simp [same])]
          exact ⟨(Function.update_of_ne (Ne.symm same) _ _).trans record, alive⟩
    | mod other bitadd => exact ⟨record, spared_step stepped unfreed (by simp [opFrees])⟩
    | del other =>
      by_cases same : other = fd
      · rw [touches, if_pos (by simp [same])]
        exact (stepped.freed address).mpr (.inr (by rw [opFrees, same, record]))
      · rw [touches, if_neg (by simp [same])]
        refine ⟨(Function.update_of_ne (Ne.symm same) _ _).trans record, spared_step stepped unfreed ?_⟩
        exact fun frees => same (registers.apart _ _ _ frees record)
  | some op' =>
    rw [Option.some_or]
    have gone : (∀ other, records other ≠ some address) ∧ address < ev.allocated ∧ ev.freed address = false →
        (∀ other, opRecords fdSetsize ev records op other ≠ some address) ∧ address < next.allocated ∧
          next.freed address = false := by
      rintro ⟨nowhere, below, unfreed⟩
      refine ⟨?_, below.trans_le stepped.allocated, ?_⟩
      · intro fd' record'
        cases op with
        | add other evd bitadd =>
          rw [opRecords] at record'
          split at record'
          · by_cases here : fd' = other
            · rw [here, Function.update_self] at record'
              cases record'
              exact Nat.lt_irrefl _ below
            · rw [Function.update_of_ne here] at record'
              exact nowhere fd' record'
          · exact nowhere fd' record'
        | mod other bitadd => exact nowhere fd' record'
        | del other =>
          by_cases here : fd' = other
          · rw [opRecords, here, Function.update_self] at record'
            cases record'
          · rw [opRecords, Function.update_of_ne here] at record'
            exact nowhere fd' record'
      · cases op with
        | add other evd bitadd => exact spared_step stepped unfreed (add_spares below)
        | mod other bitadd => exact spared_step stepped unfreed (by simp [opFrees])
        | del other => exact spared_step stepped unfreed (nowhere other)
    cases op' with
    | add other evd bitadd => exact gone placed
    | mod other bitadd => exact gone placed
    | del other => exact (stepped.freed address).mpr (.inl placed)

/-- What the callbacks of one event leave. -/
theorem placed_ops (registers : Registers fdSetsize ev registry records) (ops : List SelectOp) :
    ∃ last registry' records', runAll (SelectOp.step fdSetsize) ev ops = .ok last ∧
      Registers fdSetsize last registry' records' ∧
      last.events = ev.events ∧ (∀ address, ev.info address ≠ none → last.info address ≠ none) ∧
      ∀ fd address first, Placed ev records fd address first →
        Placed last records' fd address (first.or (ops.find? (touches fdSetsize fd))) := by
  induction ops generalizing ev registry records with
  | nil => exact ⟨ev, registry, records, rfl, registers, rfl, fun _ => id,
      fun fd address first placed => by simpa using placed⟩
  | cons op ops ih =>
    obtain ⟨next, ended, stepped⟩ := op_stepped registers op
    obtain ⟨last, registry', records', reached, kept, events, info, later⟩ := ih stepped.registers
    refine ⟨last, registry', records', ?_, kept, events.trans stepped.events, ?_, ?_⟩
    · rw [runAll, ended]
      exact reached
    · exact fun address held => info address (stepped.info address held)
    · intro fd address first placed
      have all := later fd address _ (placed_step registers stepped placed)
      rw [Option.or_assoc] at all
      rw [List.find?_cons]
      cases here : touches fdSetsize fd op with
      | true =>
        rw [here, if_pos rfl, Option.some_or] at all
        exact all
      | false =>
        rw [here, if_neg (by decide), Option.none_or] at all
        exact all

end Steps

section Loop

variable {fdSetsize : Nat} {ev : SelectFdevent} {registry : Registry} {records : BitVec 32 → Option Nat}

theorem placed_freed {fd : BitVec 32} {address : Nat} {ops : List SelectOp}
    (placed : Placed ev records fd address (ops.find? (touches fdSetsize fd))) :
    ev.freed address = true ↔ ops.find? (touches fdSetsize fd) = some (.del fd) := by
  cases first : ops.find? (touches fdSetsize fd) with
  | none =>
    rw [first] at placed
    simp [placed.2]
  | some op =>
    rw [first] at placed
    have touched := List.find?_some first
    cases op with
    | add other evd bitadd => simp [placed.2.2]
    | mod other bitadd => cases touched
    | del other =>
      rw [touches, beq_iff_eq] at touched
      rw [touched]
      exact iff_of_true placed rfl

/-- The turns from one event on: an entry's record is freed by then where the first step that touched its descriptor was its
    erasure. -/
theorem loop_freed {callbacks : Nat → List SelectOp} {listed : List HashContent} {fds : Nat → BitVec 32}
    {addresses : Nat → Nat}
    {k m : Nat} (registers : Registers fdSetsize ev registry records) (held : ev.events = listed)
    (entries : ∀ j, k ≤ j → j < k + m → listed[j]? = some (some (addresses j)) ∧ ev.info (addresses j) ≠ none ∧
      Placed ev records (fds j) (addresses j) ((earlier callbacks k).find? (touches fdSetsize (fds j)))) :
    ∃ last events, loopEvents fdSetsize callbacks ev (List.range' k m) = .ok (last, events) ∧ events.length = m ∧
      ∀ j event, events[j]? = some event →
        (event.freed = true ↔
          (earlier callbacks (k + j)).find? (touches fdSetsize (fds (k + j))) = some (.del (fds (k + j)))) := by
  induction m generalizing ev registry records k with
  | zero => exact ⟨ev, [], rfl, rfl, by simp⟩
  | succ m ih =>
    obtain ⟨entry, memory, placed⟩ := entries k le_rfl (by omega)
    obtain ⟨fdinfo, info⟩ := Option.ne_none_iff_exists'.mp memory
    rw [← held] at entry
    let changed : SelectFdevent := { ev with info := Function.update ev.info (addresses k) (some fdinfo.unready) }
    obtain ⟨next, registry', records', ran, kept, events, infos, later⟩ :=
      @placed_ops _ changed _ _ (registers_unready registers info) (callbacks k)
    have before : earlier callbacks (k + 1) = earlier callbacks k ++ callbacks k := by
      rw [earlier, List.range_succ, List.flatMap_append, List.flatMap_singleton, earlier]
    have pending : ∀ j, k + 1 ≤ j → j < k + 1 + m → listed[j]? = some (some (addresses j)) ∧ next.info (addresses j) ≠ none ∧
        Placed next records' (fds j) (addresses j) ((earlier callbacks (k + 1)).find? (touches fdSetsize (fds j))) := by
      intro j above below
      obtain ⟨entry', memory', placed'⟩ := entries j (by omega) (by omega)
      refine ⟨entry', infos _ (update_some _ _ _ memory'), ?_⟩
      rw [before, List.find?_append]
      exact later _ _ _ placed'
    obtain ⟨last, rest, ended, length, shown⟩ := ih kept (events.trans held) pending
    refine ⟨last,
      { address := addresses k, freed := ev.freed (addresses k), evd := fdinfo.ptr, bitev := fdinfo.bitret } :: rest,
      ?_, ?_, ?_⟩
    · rw [List.range'_succ, loop_turn entry info, ran]
      show Except.map _ (loopEvents _ _ _ _) = _
      rw [ended]
      rfl
    · rw [List.length_cons, length]
    · intro j event here
      cases j with
      | zero =>
        cases here
        exact placed_freed placed
      | succ j =>
        have there := shown j event (by simpa using here)
        rwa [show k + 1 + j = k + (j + 1) by omega] at there

/-- Two descriptors that are watched for reading. -/
def twoWatched : List SelectCall := [.op (.add 3#32 (.socket 0) eventRead), .op (.add 4#32 (.socket 1) eventRead)]

end Loop

end ZapeProof
