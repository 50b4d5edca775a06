import Zape.Dns.Slots

/-! What `epoll` watches the descriptors of `c-ares` for. -/
namespace ZapeProof

open Machine ZapeModel

/-- The directions in which the kernel watches a descriptor. -/
def directions (ev : Fdevent) (fd : Int) : List Directions :=
  (interestsOf ev fd).map fun interest => (interest.events &&& epollin != 0#32, interest.events &&& epollout != 0#32)

/-- What `c-ares` is told when a descriptor becomes ready. -/
def told (run : AresRun) (s : Int) (ready : BitVec 32) : List (Option Int × Option Int) :=
  (interestsOf run.sockets.events s).map fun interest =>
    match interest.evd with
    | .socket _ => (none, none)
    | .delegate slot => dispatchDelegate run.sockets.list slot (Fdevent.reported interest ready)

/-- Each open descriptor is watched in the directions that were asked for, and `c-ares` is told of those of them in which
    it becomes ready. -/
def FollowsDirections (run : AresRun) : Prop :=
  ∀ s read write, (s, read, write) ∈ run.opened →
    directions run.sockets.events s = [(read, write)] ∧
      ∀ ready, told run s ready = [(if read && ready &&& epollin != 0#32 then some s else none,
        if write && ready &&& epollout != 0#32 then some s else none)]

/-- What the code asks the kernel for. -/
def watchedFor (read write : Bool) : BitVec 32 := Fdevent.epollEvents (listenfor read write ||| eventLevel)

structure Watching (run : AresRun) : Prop where
  seated : Seated run
  delegates : ∀ socket ∈ run.sockets.list, socket.fd ≠ 0 → socket.delegate = true
  asked : ∀ s read write, (s, read, write) ∈ run.opened → read = true ∨ write = true
  watched : ∀ s read write, (s, read, write) ∈ run.opened → ∃ k : Nat, (held run.sockets.list)[k]? = some s ∧
    interestsOf run.sockets.events s = [{ fd := s, evd := .delegate k, events := watchedFor read write }]
  closed : ∀ s, 0 < s → s ∉ openFds run → interestsOf run.sockets.events s = []

section Report

variable {run : AresRun} {s : Int} {read write : Bool}

theorem masked_bit (mask ready bit : BitVec 32) : mask &&& ready &&& bit = (mask &&& bit) &&& ready := by
  rw [BitVec.and_assoc, BitVec.and_comm ready bit, ← BitVec.and_assoc]

/-- Where both directions were asked for, the kernel is asked to watch for reading only. -/
theorem watchedFor_bits (read write : Bool) :
    watchedFor read write &&& epollin = (if read then epollin else 0#32) ∧
      watchedFor read write &&& epollout = if !read && write then epollout else 0#32 := by
  cases read <;> cases write <;> decide

theorem reported_bits (read write : Bool) (ready : BitVec 32) :
    (watchedFor read write &&& ready &&& epollin != 0#32) = (read && ready &&& epollin != 0#32) ∧
      (watchedFor read write &&& ready &&& epollout != 0#32) = (!read && write && ready &&& epollout != 0#32) := by
  obtain ⟨reading, writing⟩ := watchedFor_bits read write
  rw [masked_bit _ ready epollin, masked_bit _ ready epollout, reading, writing, BitVec.and_comm ready epollin,
    BitVec.and_comm ready epollout]
  constructor
  · cases read <;> simp
  · cases read <;> cases write <;> simp

theorem aresIo_revent (fd : Int) (events : BitVec 32) :
    aresIo fd (eventEpollRevent events) =
      (if events &&& epollin != 0#32 then some fd else none, if events &&& epollout != 0#32 then some fd else none) := by
  rw [aresIo, eventEpollRevent]
  by_cases reading : events &&& epollin = 0#32
  · by_cases writing : events &&& epollout = 0#32
    · simp [reading, writing]
    · simp [reading, writing, eventRead, eventWrite]
  · by_cases writing : events &&& epollout = 0#32
    · simp [reading, writing, eventRead, eventWrite]
    · simp [reading, writing, eventRead, eventWrite]

theorem watching_told (watching : Watching run) (member : (s, read, write) ∈ run.opened) :
    directions run.sockets.events s = [(read, !read && write)] ∧
      ∀ ready, told run s ready = [(if read && ready &&& epollin != 0#32 then some s else none,
        if !read && write && ready &&& epollout != 0#32 then some s else none)] := by
  obtain ⟨k, here, interests⟩ := watching.watched s read write member
  obtain ⟨reading, writing⟩ := watchedFor_bits read write
  constructor
  · rw [directions, interests, List.map_singleton, reading, writing]
    cases read <;> cases write <;> rfl
  · intro ready
    obtain ⟨socket, at_k, rfl⟩ : ∃ socket, run.sockets.list[k]? = some socket ∧ socket.fd = s := by
      rwa [held, List.getElem?_map, Option.map_eq_some_iff] at here
    have positive := watching.seated.positive socket.fd (List.mem_map.mpr ⟨_, member, rfl⟩)
    have delegate := watching.delegates socket (List.mem_of_getElem? at_k) (by omega)
    obtain ⟨reported, reported'⟩ := reported_bits read write ready
    rw [told, interests, List.map_singleton]
    simp only [dispatchDelegate, at_k, delegate, if_true, Fdevent.reported, aresIo_revent, reported, reported']

/-- The descriptors that follow are those that were not asked to be watched in both directions. -/
theorem follows_iff (watching : Watching run) :
    FollowsDirections run ↔ ∀ s read write, (s, read, write) ∈ run.opened → ¬ (read = true ∧ write = true) := by
  constructor
  · intro follows s read write member both
    obtain ⟨same, -⟩ := follows s read write member
    rw [(watching_told watching member).1] at same
    simp [both] at same
  · intro oneWay s read write member
    have same : (!read && write) = write := by
      have notBoth := oneWay s read write member
      cases read <;> cases write <;> simp_all
    have followed := watching_told watching member
    rw [same] at followed
    exact followed

end Report

section Step

variable {run next : AresRun} {call : AresCall}

theorem cb_delegates {sockets : AresSockets} (delegates : ∀ socket ∈ sockets.list, socket.fd ≠ 0 → socket.delegate = true) :
    ∀ socket ∈ (aresSocketCb sockets call).list, socket.fd ≠ 0 → socket.delegate = true := by
  intro socket member nonzero
  cases scan : findAres call.s 0 0 sockets.list with
  | nowhere f =>
    simp only [aresSocketCb, scan] at member
    rcases List.mem_or_eq_of_mem_set member with old | rfl
    · exact delegates socket old nonzero
    · rfl
  | here index =>
    simp only [aresSocketCb, scan] at member
    split at member
    · obtain ⟨k, inside, at_k⟩ := List.getElem_of_mem member
      rw [List.getElem_modify] at at_k
      split at at_k
      · rw [← at_k] at nonzero
        exact absurd rfl nonzero
      · exact delegates socket (at_k ▸ List.getElem_mem _) nonzero
    · exact delegates socket member nonzero

/-- Other descriptors are watched as before. -/
theorem cb_elsewhere {sockets : AresSockets} {t : Int} (other : t ≠ call.s) :
    interestsOf (aresSocketCb sockets call).events t = interestsOf sockets.events t := by
  cases scan : findAres call.s 0 0 sockets.list with
  | nowhere f =>
    simp only [aresSocketCb, scan]
    rw [interestsOf_add, if_pos (.inr (.inr other))]
  | here index =>
    simp only [aresSocketCb, scan]
    split
    · rw [interestsOf_close, if_neg other, interestsOf_del]
    · rw [interestsOf_mod, if_pos (.inr (.inr other))]

theorem cb_closed {sockets : AresSockets} (nonzero : call.s ≠ 0) (closing : listenfor call.read call.write = 0#32)
    (known : call.s ∈ held sockets.list) : interestsOf (aresSocketCb sockets call).events call.s = [] := by
  obtain ⟨k, scan, -, -⟩ := cb_known nonzero known
  simp only [aresSocketCb, scan, closing, if_true]
  rw [interestsOf_close, if_pos rfl]

theorem cb_changed {sockets : AresSockets} {k : Nat} {interest : Interest} (scan : findAres call.s 0 0 sockets.list = .here k)
    (asking : listenfor call.read call.write ≠ 0#32) (accepted : call.accepted = true)
    (watched : interestsOf sockets.events call.s = [interest]) :
    interestsOf (aresSocketCb sockets call).events call.s =
      [{ fd := call.s, evd := .delegate k, events := watchedFor call.read call.write }] := by
  have watches : sockets.events.watches call.s = true := watches_iff.mpr (by rw [watched]; exact List.cons_ne_nil _ _)
  simp only [aresSocketCb, scan, if_neg asking]
  rw [interestsOf_mod, if_neg (by simp [accepted, watches]), watched]
  rfl

theorem cb_opened {sockets : AresSockets} {f : Nat} (scan : findAres call.s 0 0 sockets.list = .nowhere f)
    (accepted : call.accepted = true) (unwatched : interestsOf sockets.events call.s = []) :
    interestsOf (aresSocketCb sockets call).events call.s =
      [{ fd := call.s, evd := .delegate f, events := watchedFor call.read call.write }] := by
  have idle : ¬ sockets.events.watches call.s = true := fun watches => watches_iff.mp watches unwatched
  simp only [aresSocketCb, scan]
  rw [interestsOf_add, if_neg (by simp [accepted, idle]), unwatched]
  rfl

theorem watching_keeps (watching : Watching run) (room : HasRoom run call) (accepted : call.accepted = true)
    (stepped : run.step call = .ok next) : Watching next := by
  have seated := watching.seated
  have seated' := seated_keeps seated room stepped
  have spares := seated_spares seated room next stepped
  rcases aresStep_cases stepped with ⟨-, rfl⟩ | ⟨positive, sockets, outcome⟩
  · exact watching
  have known_iff := seated_known seated (s := call.s) (by omega)
  have delegates : ∀ socket ∈ next.sockets.list, socket.fd ≠ 0 → socket.delegate = true :=
    sockets ▸ cb_delegates watching.delegates
  have others : ∀ t read write, (t, read, write) ∈ run.opened.filter (·.1 ≠ call.s) →
      (t, read, write) ∈ run.opened ∧ t ≠ call.s := by
    intro t read write member
    obtain ⟨opened, other⟩ := List.mem_filter.mp member
    exact ⟨opened, of_decide_eq_true other⟩
  have kept : ∀ t read write, (t, read, write) ∈ run.opened.filter (·.1 ≠ call.s) →
      ∃ k : Nat, (held next.sockets.list)[k]? = some t ∧
        interestsOf next.sockets.events t = [{ fd := t, evd := .delegate k, events := watchedFor read write }] := by
    intro t read write member
    obtain ⟨opened, other⟩ := others t read write member
    obtain ⟨k, here, interests⟩ := watching.watched t read write opened
    exact ⟨k, spares t (List.mem_map.mpr ⟨_, opened, rfl⟩) other k here, by rw [sockets, cb_elsewhere other, interests]⟩
  have unopened : ∀ t, 0 < t → t ≠ call.s → t ∉ (openFds run).filter (· ≠ call.s) →
      interestsOf next.sockets.events t = [] := by
    intro t above other absent
    rw [sockets, cb_elsewhere other]
    apply watching.closed t above
    intro opened
    exact absent (List.mem_filter.mpr ⟨opened, decide_eq_true other⟩)
  rcases outcome with ⟨closing, opened, rest⟩ | ⟨asking, first⟩
  · refine { seated := seated', delegates, asked := ?_, watched := ?_, closed := ?_ }
    · intro t read write member
      rw [rest] at member
      exact watching.asked t read write (others t read write member).1
    · intro t read write member
      rw [rest] at member
      exact kept t read write member
    · intro t above absent
      rw [openFds, rest, openFds_others] at absent
      by_cases same : t = call.s
      · rw [same, sockets]
        exact cb_closed (by omega) closing (known_iff.mpr opened)
      · exact unopened t above same absent
  · refine { seated := seated', delegates, asked := ?_, watched := ?_, closed := ?_ }
    · intro t read write member
      rw [first, List.mem_cons] at member
      rcases member with same | member
      · cases same
        exact listenfor_some.mp asking
      · exact watching.asked t read write (others t read write member).1
    · intro t read write member
      rw [first, List.mem_cons] at member
      rcases member with same | member
      · cases same
        rw [sockets]
        by_cases opened : call.s ∈ openFds run
        · obtain ⟨k, scan, here, list⟩ := cb_known (by omega) (known_iff.mpr opened)
          obtain ⟨⟨-, read, write⟩, member, rfl⟩ := List.mem_map.mp opened
          obtain ⟨at_k, -, interests⟩ := watching.watched _ read write member
          rw [if_neg asking] at list
          exact ⟨k, by rw [list, here], cb_changed scan asking accepted interests⟩
        · obtain ⟨f, scan, free, list⟩ := cb_unknown fun known => opened (known_iff.mp known)
          have vacant := room_of_open seated (room positive (listenfor_some.mp asking) (by simpa [mem_openFds] using opened))
          obtain ⟨inside, -⟩ := List.getElem?_eq_some_iff.mp (free vacant)
          refine ⟨f, ?_, cb_opened scan accepted (watching.closed _ positive opened)⟩
          rw [list, List.getElem?_set_self inside]
      · exact kept t read write member
    · intro t above absent
      rw [openFds, first, List.map_cons, openFds_others, List.mem_cons, not_or] at absent
      exact unopened t above absent.1 absent.2

theorem watching_starts : Watching {} where
  seated := seated_starts
  delegates := by
    intro socket member nonzero
    rw [List.eq_of_mem_replicate member] at nonzero
    exact absurd rfl nonzero
  asked := by simp
  watched := by simp
  closed := fun _ _ _ => rfl

end Step

/-- No call asks to be told both when it can read and when it can write. -/
def AsksOneWay (call : AresCall) : Prop := 0 < call.s → ¬ (call.read = true ∧ call.write = true)

instance (call : AresCall) : Decidable (AsksOneWay call) := inferInstanceAs (Decidable (_ → _))

/-- As long as the kernel takes what it is asked to watch, all open descriptors are watched in the directions that were
    asked for exactly if no call asks for both. -/
theorem directions_follow_iff (calls : List AresCall) (accepted : ∀ call ∈ calls, call.accepted = true)
    (few : Throughout AresRun.step {} calls fun run => run.opened.length ≤ 31) :
    Throughout AresRun.step {} calls FollowsDirections ↔ EachStep AresRun.step {} calls fun _ call => AsksOneWay call := by
  let oneWay := fun run : AresRun => ∀ s read write, (s, read, write) ∈ run.opened → ¬ (read = true ∧ write = true)
  have keeps : ∀ before call after state next, calls = before ++ call :: after →
      runAll AresRun.step {} before = .ok state → Watching state → state.step call = .ok next → Watching next := by
    intro before call after state next split reached watching stepped
    have bound := few before _ state split reached
    exact watching_keeps watching (fun _ _ _ => by omega) (accepted call (by simp [split])) stepped
  apply @throughout_iff_history _ _ _ _ _ _ _ _ fun before state =>
    runAll AresRun.step {} before = .ok state ∧ Watching state ∧ oneWay state
  · exact ⟨rfl, watching_starts, fun _ _ _ member => by cases member⟩
  · rintro before after state - ⟨-, watching, way⟩
    exact (follows_iff watching).mpr way
  · rintro before call after state next split ⟨reached, watching, way⟩ met stepped
    refine ⟨(runAll_snoc reached).trans stepped, keeps before call after state next split reached watching stepped, ?_⟩
    intro s read write member
    rcases aresStep_cases stepped with ⟨-, rfl⟩ | ⟨positive, -, ⟨-, -, rest⟩ | ⟨-, first⟩⟩
    · exact way s read write member
    · rw [rest] at member
      exact way s read write (List.mem_of_mem_filter member)
    · rw [first, List.mem_cons] at member
      rcases member with same | member
      · cases same
        exact met positive
      · exact way s read write (List.mem_of_mem_filter member)
  · rintro before call after state split ⟨reached, watching, -⟩ both
    obtain ⟨positive, reading, writing⟩ : 0 < call.s ∧ call.read = true ∧ call.write = true := by
      simpa only [AsksOneWay, Classical.not_imp, not_not] using both
    have stepped : state.step call = .ok
        { sockets := aresSocketCb state.sockets call
          opened := (call.s, call.read, call.write) :: state.opened.filter (·.1 ≠ call.s) } := by
      rw [AresRun.step, if_neg (by omega), if_neg (by simp [reading])]
    refine ⟨_, stepped, fun follows => ?_⟩
    have watching' := keeps before call after state _ split reached watching stepped
    exact (follows_iff watching').mp follows call.s call.read call.write List.mem_cons_self ⟨reading, writing⟩

/-- `c-ares` opens a descriptor to read from it, and then asks to be told as well when it can write. -/
def widening : List AresCall := [{ s := 5, read := true, write := false }, { s := 5, read := true, write := true }]

/-- The descriptor is watched for reading only. -/
theorem both_watched_one_way :
    ∃ run, runAll AresRun.step {} widening = .ok run ∧ (5, true, true) ∈ run.opened ∧
      directions run.sockets.events 5 = [(true, false)] ∧ ¬ FollowsDirections run := by
  refine ⟨_, rfl, List.mem_cons_self, rfl, fun follows => ?_⟩
  obtain ⟨same, -⟩ := follows 5 true true List.mem_cons_self
  exact absurd same (by decide)

/-- A descriptor that is opened to read from it, then to write to it, and closed. -/
def turning : List AresCall :=
  [{ s := 5, read := true, write := false }, { s := 5, read := false, write := true },
    { s := 5, read := false, write := false }]

theorem turning_followed : Throughout AresRun.step {} turning FollowsDirections := by
  apply (directions_follow_iff turning (by decide) ?_).mpr
  · apply each_of_check
    decide
  · have checked := @throughout_of_check _ _ _ AresRun.step {} turning (fun run => decide (run.opened.length ≤ 31))
      (by decide)
    intro before after state split reached
    exact of_decide_eq_true (checked before after state split reached)

end ZapeProof
