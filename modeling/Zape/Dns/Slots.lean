import Mathlib.Data.List.Nodup
import Zape.Dns.Sockets

/-! Which entry of `dns.sockets.list` holds which descriptor. -/
namespace ZapeProof

open Machine ZapeModel

def held (list : List AresSocket) : List Int := list.map (·.fd)

def openFds (run : AresRun) : List Int := run.opened.map Prod.fst

/-- Each open descriptor is held by exactly one entry. -/
def HeldOnce (run : AresRun) : Prop := ∀ s ∈ openFds run, (held run.sockets.list).count s = 1

/-- The entries of other open descriptors stay as they are. -/
def SparesOthers (run : AresRun) (call : AresCall) : Prop :=
  ∀ next, run.step call = .ok next → ∀ s ∈ openFds run, s ≠ call.s → ∀ k : Nat,
    (held run.sockets.list)[k]? = some s → (held next.sockets.list)[k]? = some s

/-- A descriptor is opened only while fewer than 32 others are. -/
def HasRoom (run : AresRun) (call : AresCall) : Prop :=
  0 < call.s → (call.read = true ∨ call.write = true) → run.isOpen call.s = false → run.opened.length < 32

/-- The entries hold the open descriptors, each once, and zeros. -/
structure Seated (run : AresRun) : Prop where
  size : run.sockets.list.length = 32
  apart : (openFds run).Nodup
  positive : ∀ s ∈ openFds run, 0 < s
  counts : ∀ s ≠ 0, (held run.sockets.list).count s = if s ∈ openFds run then 1 else 0

section Scan

variable {s : Int} {i f index : Nat} {list : List AresSocket}

theorem findAres_here (found : findAres s i f list = .here index) :
    ∃ k, index = i + k ∧ (held list)[k]? = some s := by
  induction list generalizing i f with
  | nil => cases found
  | cons socket list ih =>
    rw [findAres] at found
    split at found
    · obtain ⟨k, at_k, holds⟩ := ih found
      exact ⟨k + 1, by omega, holds⟩
    · split at found
      · rename_i same
        cases found
        exact ⟨0, rfl, congrArg some same⟩
      · obtain ⟨k, at_k, holds⟩ := ih found
        exact ⟨k + 1, by omega, holds⟩

theorem findAres_absent (nonzero : s ≠ 0) (unfound : findAres s i f list = .nowhere index) : s ∉ held list := by
  induction list generalizing i f with
  | nil => exact List.not_mem_nil
  | cons socket list ih =>
    rw [findAres] at unfound
    show s ∉ socket.fd :: held list
    rw [List.mem_cons, not_or]
    split at unfound
    · rename_i free
      exact ⟨fun same => nonzero (same.trans free.2), ih unfound⟩
    · split at unfound
      · cases unfound
      · rename_i other
        exact ⟨fun same => other same.symm, ih unfound⟩

/-- What is in `f` stays there if it is not zero, or if no entry is free. -/
theorem findAres_kept (kept : f ≠ 0 ∨ 0 ∉ held list) (unfound : findAres s i f list = .nowhere index) : index = f := by
  induction list generalizing i with
  | nil =>
    cases unfound
    rfl
  | cons socket list ih =>
    have apart : ¬ (f = 0 ∧ socket.fd = 0) := by
      rintro ⟨zero, free⟩
      exact kept.elim (fun taken => taken zero) fun full => full (by simp [held, free])
    rw [findAres, if_neg apart] at unfound
    split at unfound
    · cases unfound
    · exact ih (kept.imp id fun full more => full (List.mem_cons_of_mem _ more)) unfound

/-- Behind the first entry the loop ends at the first free entry, if there is one. -/
theorem findAres_later (later : 0 < i) (unfound : findAres s i 0 list = .nowhere index) (room : 0 ∈ held list) :
    ∃ k, index = i + k ∧ (held list)[k]? = some 0 := by
  induction list generalizing i with
  | nil => cases room
  | cons socket list ih =>
    rw [findAres] at unfound
    by_cases free : socket.fd = 0
    · rw [if_pos ⟨rfl, free⟩] at unfound
      exact ⟨0, findAres_kept (.inl (by omega)) unfound, congrArg some free⟩
    · rw [if_neg fun both => free both.2] at unfound
      split at unfound
      · cases unfound
      · obtain ⟨k, at_k, holds⟩ := ih (by omega) unfound ((List.mem_cons.mp room).resolve_left fun same => free same.symm)
        exact ⟨k + 1, by omega, holds⟩

/-- Zero stands for the first entry and for none: it is taken over only where no other entry is free. -/
theorem findAres_free (unfound : findAres s 0 0 list = .nowhere index) (room : 0 ∈ held list) :
    (held list)[index]? = some 0 := by
  cases list with
  | nil => cases room
  | cons socket list =>
    have rest : findAres s 1 0 list = .nowhere index := by
      rw [findAres] at unfound
      split at unfound
      · exact unfound
      · split at unfound
        · cases unfound
        · exact unfound
    by_cases more : 0 ∈ held list
    · obtain ⟨k, rfl, holds⟩ := findAres_later Nat.one_pos rest more
      rw [Nat.add_comm]
      exact holds
    · rw [findAres_kept (.inr more) rest]
      exact congrArg some ((List.mem_cons.mp room).resolve_right more).symm

end Scan

section Step

variable {run next : AresRun} {call : AresCall}

theorem mem_openFds {s : Int} : s ∈ openFds run ↔ run.isOpen s = true := by
  simp [openFds, AresRun.isOpen]

theorem held_set {list : List AresSocket} (index : Nat) (socket : AresSocket) :
    held (list.set index socket) = (held list).set index socket.fd := List.map_set

theorem held_modify {list : List AresSocket} (index : Nat) :
    held (list.modify index ({ · with fd := 0 })) = (held list).set index 0 := by
  rw [held, held]
  apply List.ext_getElem?
  intro k
  by_cases same : index = k
  · subst same
    by_cases inside : index < list.length
    · simp [inside]
    · simp [inside]
  · simp [same]

theorem listenfor_zero {read write : Bool} : listenfor read write = 0#32 ↔ read = false ∧ write = false := by
  cases read <;> cases write <;> decide

theorem listenfor_some {read write : Bool} : listenfor read write ≠ 0#32 ↔ read = true ∨ write = true := by
  cases read <;> cases write <;> decide

theorem cb_known (nonzero : call.s ≠ 0) {sockets : AresSockets} (known : call.s ∈ held sockets.list) :
    ∃ k : Nat, findAres call.s 0 0 sockets.list = .here k ∧ (held sockets.list)[k]? = some call.s ∧
      held (aresSocketCb sockets call).list =
        if listenfor call.read call.write = 0#32 then (held sockets.list).set k 0 else held sockets.list := by
  cases scan : findAres call.s 0 0 sockets.list with
  | nowhere f => exact absurd known (findAres_absent nonzero scan)
  | here index =>
    obtain ⟨k, rfl, holds⟩ := findAres_here scan
    refine ⟨0 + k, rfl, by rw [Nat.zero_add]; exact holds, ?_⟩
    simp only [aresSocketCb, scan]
    split
    · exact held_modify _
    · rfl

theorem cb_unknown {sockets : AresSockets} (unknown : call.s ∉ held sockets.list) :
    ∃ f : Nat, findAres call.s 0 0 sockets.list = .nowhere f ∧
      (0 ∈ held sockets.list → (held sockets.list)[f]? = some 0) ∧
      held (aresSocketCb sockets call).list = (held sockets.list).set f call.s := by
  cases scan : findAres call.s 0 0 sockets.list with
  | here index =>
    obtain ⟨k, -, holds⟩ := findAres_here scan
    exact absurd (List.mem_of_getElem? holds) unknown
  | nowhere f =>
    refine ⟨f, rfl, fun room => findAres_free scan room, ?_⟩
    simp only [aresSocketCb, scan]
    exact held_set f _

theorem openFds_others (run : AresRun) (s : Int) :
    (run.opened.filter (·.1 ≠ s)).map Prod.fst = (openFds run).filter (· ≠ s) := by
  rw [openFds, List.filter_map]
  rfl

/-- A call is ignored, or closes an open descriptor, or asks for one. -/
theorem aresStep_cases (stepped : run.step call = .ok next) :
    (call.s ≤ 0 ∨ listenfor call.read call.write = 0#32) ∧ next = run ∨
      0 < call.s ∧ next.sockets = aresSocketCb run.sockets call ∧
        (listenfor call.read call.write = 0#32 ∧ call.s ∈ openFds run ∧ next.opened = run.opened.filter (·.1 ≠ call.s) ∨
          listenfor call.read call.write ≠ 0#32 ∧
            next.opened = (call.s, call.read, call.write) :: run.opened.filter (·.1 ≠ call.s)) := by
  rw [AresRun.step] at stepped
  split at stepped
  · rename_i ignored
    cases stepped
    exact .inl ⟨.inl ignored, rfl⟩
  · rename_i positive
    split at stepped
    · rename_i closing
      split at stepped
      · rename_i opened
        cases stepped
        exact .inr ⟨by omega, rfl, .inl ⟨listenfor_zero.mpr closing, mem_openFds.mpr opened, rfl⟩⟩
      · cases stepped
        exact .inl ⟨.inr (listenfor_zero.mpr closing), rfl⟩
    · rename_i asking
      cases stepped
      exact .inr ⟨by omega, rfl, .inr ⟨fun zero => asking (listenfor_zero.mp zero), rfl⟩⟩

theorem seated_starts : Seated {} where
  size := List.length_replicate
  apart := List.nodup_nil
  positive := by simp [openFds]
  counts := by
    intro s other
    have zeros : held ({} : AresRun).sockets.list = List.replicate 32 0 := rfl
    rw [zeros, List.count_replicate]
    simp [openFds, other.symm]

/-- As long as fewer descriptors are open than there are entries, one of them is free. -/
theorem room_of_open (seated : Seated run) (few : run.opened.length < 32) : 0 ∈ held run.sockets.list := by
  by_contra full
  have apart : (held run.sockets.list).Nodup := by
    rw [List.nodup_iff_count_le_one]
    intro s
    by_cases zero : s = 0
    · rw [zero, List.count_eq_zero.mpr full]
      exact Nat.zero_le 1
    · rw [seated.counts s zero]
      split
      · exact Nat.le_refl 1
      · exact Nat.zero_le 1
  have inside : held run.sockets.list ⊆ openFds run := by
    intro s member
    by_contra closed
    have counted := seated.counts s fun zero => full (zero ▸ member)
    rw [if_neg closed] at counted
    exact List.count_eq_zero.mp counted member
  have bound := apart.length_le_of_subset inside
  rw [held, openFds, List.length_map, List.length_map, seated.size] at bound
  omega

theorem seated_known (seated : Seated run) {s : Int} (nonzero : s ≠ 0) :
    s ∈ held run.sockets.list ↔ s ∈ openFds run := by
  have counted := seated.counts s nonzero
  rw [← List.count_pos_iff, counted]
  split
  · rename_i opened
    exact iff_of_true Nat.one_pos opened
  · rename_i closed
    exact iff_of_false (Nat.lt_irrefl 0) closed

theorem count_set_at {fds : List Int} {k : Nat} {old : Int} (here : fds[k]? = some old) (new s : Int) :
    (fds.set k new).count s = fds.count s - (if old = s then 1 else 0) + if new = s then 1 else 0 := by
  obtain ⟨inside, rfl⟩ := List.getElem?_eq_some_iff.mp here
  rw [List.count_set inside]
  simp only [beq_iff_eq]

theorem seated_keeps (seated : Seated run) (room : HasRoom run call) (stepped : run.step call = .ok next) : Seated next := by
  rcases aresStep_cases stepped with ⟨-, rfl⟩ | ⟨positive, sockets, outcome⟩
  · exact seated
  have nonzero : call.s ≠ 0 := by omega
  have others : ∀ s, s ∈ (openFds run).filter (· ≠ call.s) ↔ s ∈ openFds run ∧ s ≠ call.s := by
    intro s
    rw [List.mem_filter, decide_eq_true_iff]
  have apart : ((openFds run).filter (· ≠ call.s)).Nodup := seated.apart.filter _
  have size : next.sockets.list.length = 32 := by
    have length : (held next.sockets.list).length = (held run.sockets.list).length := by
      by_cases known : call.s ∈ held run.sockets.list
      · obtain ⟨k, -, -, same⟩ := cb_known nonzero known
        rw [sockets, same]
        split
        · exact List.length_set
        · rfl
      · obtain ⟨f, -, -, same⟩ := cb_unknown known
        rw [sockets, same]
        exact List.length_set
    rw [held, held, List.length_map, List.length_map] at length
    exact length.trans seated.size
  have known_iff := seated_known seated nonzero
  rcases outcome with ⟨closing, opened, rest⟩ | ⟨asking, first⟩
  · have left : openFds next = (openFds run).filter (· ≠ call.s) := by rw [openFds, rest, openFds_others]
    obtain ⟨k, -, here, same⟩ := cb_known nonzero (known_iff.mpr opened)
    rw [if_pos closing] at same
    refine { size, apart := left ▸ apart, positive := ?_, counts := ?_ }
    · intro s member
      rw [left, others] at member
      exact seated.positive s member.1
    · intro s other
      rw [sockets, same, count_set_at here, seated.counts s other, left]
      simp only [others]
      grind
  · have more : openFds next = call.s :: (openFds run).filter (· ≠ call.s) := by
      rw [openFds, first, List.map_cons, openFds_others]
    refine { size, apart := ?_, positive := ?_, counts := ?_ }
    · rw [more]
      exact List.nodup_cons.mpr ⟨fun member => ((others _).mp member).2 rfl, apart⟩
    · intro s member
      rw [more, List.mem_cons, others] at member
      rcases member with rfl | ⟨member, -⟩
      · exact positive
      · exact seated.positive s member
    · intro s other
      rw [more, sockets]
      simp only [List.mem_cons, others]
      by_cases opened : call.s ∈ openFds run
      · obtain ⟨k, -, -, same⟩ := cb_known nonzero (known_iff.mpr opened)
        rw [if_neg asking] at same
        rw [same, seated.counts s other]
        grind
      · obtain ⟨f, -, free, same⟩ := cb_unknown fun known => opened (known_iff.mp known)
        have few := room positive (listenfor_some.mp asking) (by simpa [mem_openFds] using opened)
        rw [same, count_set_at (free (room_of_open seated few)), seated.counts s other]
        grind

theorem seated_heldOnce (seated : Seated run) : HeldOnce run := by
  intro s opened
  have positive := seated.positive s opened
  rw [seated.counts s (by omega), if_pos opened]

theorem seated_spares (seated : Seated run) (room : HasRoom run call) : SparesOthers run call := by
  intro next stepped s opened other k here
  rcases aresStep_cases stepped with ⟨-, rfl⟩ | ⟨positive, sockets, outcome⟩
  · exact here
  rw [sockets]
  have elsewhere : ∀ (at_k : Nat) (old new : Int), (held run.sockets.list)[at_k]? = some old → old ≠ s →
      ((held run.sockets.list).set at_k new)[k]? = some s := by
    intro at_k old new there differs
    have apart : at_k ≠ k := by
      rintro rfl
      exact differs (Option.some.inj (there.symm.trans here))
    rw [List.getElem?_set_ne apart, here]
  by_cases known : call.s ∈ held run.sockets.list
  · obtain ⟨at_k, -, there, same⟩ := cb_known (by omega) known
    rw [same]
    split
    · exact elsewhere at_k call.s 0 there other.symm
    · exact here
  · obtain ⟨f, -, free, same⟩ := cb_unknown known
    have positive' := seated.positive s opened
    rw [same]
    refine elsewhere f 0 call.s (free ?_) (by omega)
    have closed := fun opened => known ((seated_known seated (by omega)).mpr opened)
    rcases outcome with ⟨-, opened, -⟩ | ⟨asking, -⟩
    · exact absurd opened closed
    · apply room_of_open seated
      exact room positive (listenfor_some.mp asking) (by simpa [mem_openFds] using closed)

/-- The descriptor that is one too many has no entry left. -/
theorem crowded_breaks (seated : Seated run) (full : ¬ HasRoom run call) :
    ∃ next, run.step call = .ok next ∧ ¬ HeldOnce next := by
  obtain ⟨positive, asking, closed, crowd⟩ :
      0 < call.s ∧ (call.read = true ∨ call.write = true) ∧ run.isOpen call.s = false ∧ ¬ run.opened.length < 32 := by
    simpa only [HasRoom, Classical.not_imp] using full
  have unknown : call.s ∉ openFds run := fun opened => by simp [mem_openFds.mp opened] at closed
  obtain ⟨next, stepped⟩ : ∃ next, run.step call = .ok next := by
    rw [AresRun.step]
    split
    · exact ⟨_, rfl⟩
    · split
      · split
        · exact ⟨_, rfl⟩
        · exact ⟨_, rfl⟩
      · exact ⟨_, rfl⟩
  refine ⟨next, stepped, fun once => ?_⟩
  obtain ⟨f, -, -, same⟩ := cb_unknown fun known => unknown ((seated_known seated (by omega)).mp known)
  rcases aresStep_cases stepped with ⟨ignored, -⟩ | ⟨-, sockets, ⟨-, opened, -⟩ | ⟨-, first⟩⟩
  · exact ignored.elim (by omega) (listenfor_some.mpr asking)
  · exact unknown opened
  · have others : (openFds run).filter (· ≠ call.s) = openFds run := by
      rw [List.filter_eq_self]
      intro s member
      exact decide_eq_true fun same => unknown (same ▸ member)
    have more : openFds next = call.s :: openFds run := by
      rw [openFds, first, List.map_cons, openFds_others, others]
    have apart : (openFds next).Nodup := more ▸ List.nodup_cons.mpr ⟨unknown, seated.apart⟩
    have inside : openFds next ⊆ held next.sockets.list := by
      intro s opened
      exact List.count_pos_iff.mp (by rw [once s opened]; exact Nat.one_pos)
    have bound := apart.length_le_of_subset inside
    rw [more, sockets, same, List.length_set, List.length_cons, held, openFds, List.length_map, List.length_map,
      seated.size] at bound
    omega

end Step

/-- Every open descriptor has an entry of its own in all states exactly if at most 32 are open at once. -/
theorem descriptors_held_iff (calls : List AresCall) :
    Throughout AresRun.step {} calls HeldOnce ∧ EachStep AresRun.step {} calls SparesOthers ↔
      EachStep AresRun.step {} calls HasRoom := by
  have keeps : ∀ state call next, Seated state → HasRoom state call → state.step call = .ok next → Seated next :=
    fun _ _ _ seated room stepped => seated_keeps seated room stepped
  have once := @throughout_iff _ _ _ AresRun.step {} calls Seated HeldOnce HasRoom seated_starts
    (fun _ seated => seated_heldOnce seated) keeps fun _ _ seated full => crowded_breaks seated full
  constructor
  · exact fun both => once.mp both.1
  · intro room
    refine ⟨once.mpr room, ?_⟩
    intro before call after state split reached
    exact seated_spares (throughout_of_each seated_starts keeps room before _ state split reached)
      (room before call after state split reached)

/-- So many calls, each of which opens another descriptor to read from it. -/
def openings (count : Nat) : List AresCall := (List.range' 1 count).map fun s => { s, read := true, write := false }

instance (run : AresRun) : Decidable (HeldOnce run) := inferInstanceAs (Decidable (∀ s ∈ openFds run, _))

/-- The 33rd descriptor takes the place of the one in the first entry. -/
theorem full_table_overwritten :
    ∃ run, runAll AresRun.step {} (openings 33) = .ok run ∧ 32 ∈ openFds run ∧ 32 ∉ held run.sockets.list ∧ ¬ HeldOnce run :=
  ⟨_, rfl, by decide⟩

end ZapeProof
