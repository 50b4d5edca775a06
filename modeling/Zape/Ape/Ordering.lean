import Zape.Ape.Slots

/-! Whether the active jobs of a socket stay in the order in which they were requested. -/
namespace ZapeModel

open Machine

inductive JobType
  | writev
  | sendfile
  | shutdown
  deriving DecidableEq, Repr

def JobType.flag : JobType → BitVec 32
  | .writev => apeSocketJobWritev
  | .sendfile => apeSocketJobSendfile
  | .shutdown => apeSocketJobShutdown

/-- A call of `ape_socket_job_get_slot`, or the end of a job in the loop of `ape_socket_do_jobs`. -/
inductive JobStep
  | request (type : JobType)
  | finish

/-- A socket, and the slots of the jobs that were requested and have not ended, in the order of the requests. -/
structure JobRun where
  socket : ApeSocket := {}
  order : List Nat := []

def JobRun.step (run : JobRun) : JobStep → Except Fault JobRun
  | .request type =>
    match apeSocketJobGetSlot run.socket type.flag with
    | .error fault => .error fault
    | .ok (socket, slot) => .ok { socket, order := if slot ∈ run.order then run.order else run.order ++ [slot] }
  | .finish =>
    match run.socket.jobs.head with
    | none => .ok run
    | some job =>
      if (run.socket.jobs.node job).active then
        match finishJob { socket := run.socket } 0 job with
        | .again doing => .ok { socket := doing.world.socket, order := run.order.erase job }
        | .done (.error fault) => .error fault
        | .done (.ok _) => .ok run
      else .ok run

end ZapeModel

namespace ZapeProof

open Machine ZapeModel

/-- The active jobs come first, in the order of the requests, and the last of them is the current one. -/
structure InOrder (jobs : PoolList Job) (order : List Nat) : Prop where
  segment : ∃ free, Segment (nexts jobs) jobs.head (order ++ free) none ∧
    ∀ slot ∈ free, (jobs.node slot).active = false
  active : ∀ slot ∈ order, (jobs.node slot).active = true
  ends : order ≠ [] → jobs.current = order.getLast?

/-- No other job is active behind the one that ends. -/
def EndsAlone (run : JobRun) : JobStep → Prop
  | .request _ => True
  | .finish => ∀ job, run.socket.jobs.head = some job → (run.socket.jobs.node job).active = true →
    run.socket.jobs.current = some job

/-- What holds of the job list as long as every job that ends is the only one. -/
structure Lined (jobs : PoolList Job) (order free : List Nat) : Prop where
  shape : Shape jobs (order ++ free)
  active : ∀ slot ∈ order, (jobs.node slot).active = true
  inactive : ∀ slot ∈ free, (jobs.node slot).active = false
  idle : order = [] → jobs.current = jobs.head
  ends : order ≠ [] → jobs.current = order.getLast?

section Activity

theorem active_iff (jobs : PoolList Job) (slot : Nat) :
    (jobs.node slot).active = true ↔ flagsOf jobs slot &&& apeSocketJobActive ≠ 0#32 := by
  simp [PoolNode.active, flagsOf]

theorem inactive_iff (jobs : PoolList Job) (slot : Nat) :
    (jobs.node slot).active = false ↔ flagsOf jobs slot &&& apeSocketJobActive = 0#32 := by
  simp [PoolNode.active, flagsOf]

theorem taken_active (flags type : BitVec 32) : (flags ||| (apeSocketJobActive ||| type)) &&& apeSocketJobActive ≠ 0#32 := by
  have bit : ((flags ||| (apeSocketJobActive ||| type)) &&& apeSocketJobActive).getLsbD 4 = true := by
    simp [apeSocketJobActive]
  intro zero
  rw [zero] at bit
  simp at bit

theorem released_inactive (flags : BitVec 32) : (flags &&& ~~~apeSocketJobActive) &&& apeSocketJobActive = 0#32 := by
  rw [BitVec.and_assoc]
  simp [apeSocketJobActive]

theorem active_taken (jobs : PoolList Job) (slot : Nat) (bits : BitVec 32) (address : Nat) :
    ((takeSlot jobs slot bits).node address).active = (decide (address = slot) || (jobs.node address).active) := by
  have flags := takeSlot_flags bits jobs slot
  by_cases same : address = slot
  · subst same
    have here := (active_iff (takeSlot jobs address bits) address).mpr
      (by rw [flags, Function.update_self]; exact taken_active _ _)
    simp [here]
  · have kept : flagsOf (takeSlot jobs slot bits) address = flagsOf jobs address := by
      rw [flags, Function.update_of_ne same]
    have both : ((takeSlot jobs slot bits).node address).active = (jobs.node address).active := by
      simp only [PoolNode.active]
      exact congrArg (fun flags => flags &&& apeSocketJobActive != 0#32) kept
    simp [both, same]

def released (jobs : PoolList Job) (job : Nat) : PoolList Job :=
  jobs.setFlags job (flagsOf jobs job &&& ~~~apeSocketJobActive)

theorem active_released (jobs : PoolList Job) (job address : Nat) :
    ((released jobs job).node address).active = (!decide (address = job) && (jobs.node address).active) := by
  have flags : flagsOf (released jobs job) = Function.update (flagsOf jobs) job _ := flagsOf_setFlags jobs job _
  by_cases same : address = job
  · subst same
    have here := (inactive_iff (released jobs address) address).mpr
      (by rw [flags, Function.update_self]; exact released_inactive _)
    simp [here]
  · have kept : flagsOf (released jobs job) address = flagsOf jobs address := by
      rw [flags, Function.update_of_ne same]
    have both : ((released jobs job).node address).active = (jobs.node address).active := by
      simp only [PoolNode.active]
      exact congrArg (fun flags => flags &&& apeSocketJobActive != 0#32) kept
    simp [both, same]

end Activity

section Requests

variable {socket : ApeSocket} {order free : List Nat} {type : JobType}

theorem lined_taken {jobs : PoolList Job} {slot : Nat} (shape : Shape jobs (order ++ slot :: free))
    (active : ∀ address ∈ order, (jobs.node address).active = true)
    (inactive : ∀ address ∈ free, (jobs.node address).active = false) (bits : BitVec 32) :
    Lined (takeSlot jobs slot bits) (order ++ [slot]) free := by
  have apart := List.nodup_append.mp shape.nodup
  refine { shape := ?_, active := ?_, inactive := ?_, idle := ?_, ends := ?_ }
  · rw [List.append_assoc, List.singleton_append]
    exact takeSlot_shape bits shape slot
  · intro address member
    rw [active_taken]
    rcases List.mem_append.mp member with before | last
    · simp [active address before]
    · simp [List.mem_singleton.mp last]
  · intro address member
    have differ : address ≠ slot := by
      rintro rfl
      exact (List.nodup_cons.mp apart.2.1).1 member
    rw [active_taken]
    simp [differ, inactive address member]
  · simp
  · intro _
    rw [List.getLast?_append]
    rfl

theorem lined_merged {jobs : PoolList Job} {front : List Nat} {last : Nat} (lined : Lined jobs (front ++ [last]) free)
    (bits : BitVec 32) : Lined (takeSlot jobs last bits) (front ++ [last]) free := by
  refine { shape := takeSlot_shape bits lined.shape last, active := ?_, inactive := ?_, idle := by simp, ends := ?_ }
  · intro address member
    rw [active_taken]
    simp [lined.active address member]
  · intro address member
    have differ : address ≠ last := by
      rintro rfl
      exact (List.nodup_append.mp lined.shape.nodup).2.2 _ (by simp) _ member rfl
    rw [active_taken]
    simp [differ, lined.inactive address member]
  · intro _
    rw [List.getLast?_append]
    rfl

theorem request_lined (lined : Lined socket.jobs order free) :
    ∃ next slot left, apeSocketJobGetSlot socket type.flag = .ok (next, slot) ∧
      Lined next.jobs (if slot ∈ order then order else order ++ [slot]) left := by
  rcases List.eq_nil_or_concat order with rfl | ⟨front, last, rfl⟩
  · -- no job is active: the current slot is the head, and it is free
    obtain ⟨slot, left, rfl⟩ : ∃ slot left, free = slot :: left := by
      cases free with
      | nil => exact absurd lined.shape.queue (by simp)
      | cons slot left => exact ⟨slot, left, rfl⟩
    have current : socket.jobs.current = some slot := (lined.idle rfl).trans lined.shape.chain.1
    have quiet : flagsOf socket.jobs slot &&& apeSocketJobActive = 0#32 :=
      (inactive_iff _ _).mp (lined.inactive slot (by simp))
    rcases @getSlot_cases socket [] left slot type.flag lined.shape current with ⟨-, got⟩ | ⟨busy, -⟩ | ⟨busy, -⟩
    · refine ⟨_, slot, left, got, ?_⟩
      rw [if_neg (by simp)]
      apply @lined_taken [] left _ _ lined.shape (by simp)
      intro address member
      exact lined.inactive address (List.mem_cons_of_mem slot member)
    · exact absurd (.inr quiet) busy
    · exact absurd (.inr quiet) busy
  · rw [List.concat_eq_append] at lined ⊢
    have current : socket.jobs.current = some last := by
      rw [lined.ends (by simp), List.getLast?_append]
      rfl
    have shape : Shape socket.jobs (front ++ last :: free) := by
      have nodes := lined.shape
      rw [List.append_assoc] at nodes
      exact nodes
    rcases @getSlot_cases socket front free last type.flag shape current with
      ⟨-, got⟩ | ⟨-, rfl, got⟩ | ⟨-, slot, left, rfl, got⟩
    · refine ⟨_, last, free, got, ?_⟩
      rw [if_pos (by simp)]
      exact lined_merged lined type.flag
    · have below : ∀ address ∈ front ++ [last], address < socket.jobs.count :=
        fun address member => lined.shape.below address (List.mem_append_left _ member)
      have fresh : socket.jobs.count ∉ front ++ [last] := fun member => absurd (below _ member) (lt_irrefl _)
      have grown := shape_grow lined.shape (show 0 < 2 by omega)
      rw [List.append_nil] at grown
      refine ⟨_, socket.jobs.count, [socket.jobs.count + 1], got, ?_⟩
      rw [if_neg fresh]
      apply lined_taken grown
      · intro address member
        have before := below address member
        rw [active_iff, flagsOf_grow, if_neg (by omega), ← active_iff]
        exact lined.active address member
      · intro address member
        rw [inactive_iff, flagsOf_grow, List.mem_singleton.mp member, if_pos (by omega), if_neg (by omega)]
        rfl
    · have fresh : slot ∉ front ++ [last] :=
        fun member => (List.nodup_append.mp lined.shape.nodup).2.2 slot member slot (by simp) rfl
      refine ⟨_, slot, left, got, ?_⟩
      rw [if_neg fresh]
      apply lined_taken lined.shape lined.active
      intro address member
      exact lined.inactive address (List.mem_cons_of_mem slot member)

end Requests

section Ends

variable {socket : ApeSocket} {order free : List Nat} {job : Nat}

theorem finish_alone (lined : Lined socket.jobs [job] free) :
    ∃ next, JobRun.step { socket, order := [job] } .finish = .ok next ∧ ∃ left, Lined next.socket.jobs next.order left := by
  have head : socket.jobs.head = some job := lined.shape.chain.1
  have current : socket.jobs.current = some job := lined.ends (by simp)
  have same : (released socket.jobs job).head = (released socket.jobs job).current := head.trans current.symm
  refine ⟨{ socket := { socket with jobs := released socket.jobs job }, order := [] }, ?_, job :: free, ?_⟩
  · simp only [JobRun.step, head, lined.active job (by simp), ite_true, finishJob]
    rw [show socket.jobs.setFlags job ((socket.jobs.node job).flags &&& ~~~apeSocketJobActive) =
      released socket.jobs job from rfl, apePoolHeadToCurrent, if_pos same]
    simp
  · refine { shape := shape_setFlags lined.shape job _, active := by simp, inactive := ?_, idle := fun _ => same.symm,
             ends := by simp }
    intro address member
    show ((released socket.jobs job).node address).active = false
    rw [active_released]
    rcases List.mem_cons.mp member with rfl | behind
    · simp
    · simp [lined.inactive address behind]

theorem free_head (lined : Lined socket.jobs [] free) (head : socket.jobs.head = some job) :
    (socket.jobs.node job).active = false := by
  apply lined.inactive
  cases free with
  | nil => exact absurd lined.shape.queue (by simp)
  | cons slot left =>
    have same : socket.jobs.head = some slot := lined.shape.chain.1
    cases head.symm.trans same
    exact List.mem_cons_self

theorem finish_idle (lined : Lined socket.jobs [] free) :
    JobRun.step { socket, order := [] } .finish = .ok { socket, order := [] } := by
  cases head : socket.jobs.head with
  | none => simp only [JobRun.step, head]
  | some job => simp only [JobRun.step, head, free_head lined head, Bool.false_eq_true, ite_false]

theorem waiting_behind {second : Nat} {more : List Nat} (lined : Lined socket.jobs (job :: second :: more) free) :
    socket.jobs.current ≠ some job := by
  intro current
  have last := lined.ends (by simp)
  rw [current, List.getLast?_cons_cons] at last
  exact (List.nodup_cons.mp (List.nodup_append.mp lined.shape.nodup).1).1 (List.mem_of_getLast? last.symm)

/-- Ending while another job is active leaves a free slot as the current one. -/
theorem finish_behind {second : Nat} {more : List Nat} (lined : Lined socket.jobs (job :: second :: more) free) :
    ∃ next, JobRun.step { socket, order := job :: second :: more } .finish = .ok next ∧
      ¬ InOrder next.socket.jobs next.order := by
  have head : socket.jobs.head = some job := lined.shape.chain.1
  obtain ⟨front, last, split⟩ : ∃ front last, second :: more = front ++ [last] :=
    ⟨_, _, (List.dropLast_append_getLast (List.cons_ne_nil second more)).symm⟩
  have current : socket.jobs.current = some last := by
    rw [lined.ends (by simp), List.getLast?_cons_cons, split, List.getLast?_append]
    rfl
  have shape : Shape (released socket.jobs job) (job :: (front ++ last :: free)) := by
    have nodes := shape_setFlags lined.shape job (flagsOf socket.jobs job &&& ~~~apeSocketJobActive)
    rw [List.cons_append, split, List.append_assoc] at nodes
    exact nodes
  obtain ⟨moved, first, turned, -, -, -, ends, -⟩ := headToCurrent_shape shape current
  have outside : job ∉ second :: more := (List.nodup_cons.mp (List.nodup_append.mp lined.shape.nodup).1).1
  refine ⟨{ socket := { socket with jobs := moved }, order := second :: more }, ?_, ?_⟩
  · simp only [JobRun.step, head, lined.active job (by simp), ite_true, finishJob]
    rw [show socket.jobs.setFlags job ((socket.jobs.node job).flags &&& ~~~apeSocketJobActive) =
      released socket.jobs job from rfl, turned]
    simp
  · intro inOrder
    have points : moved.current = (second :: more).getLast? := inOrder.ends (by simp)
    rw [ends] at points
    exact outside (List.mem_of_getLast? points.symm)

end Ends

theorem Lined.inOrder {jobs : PoolList Job} {order free : List Nat} (lined : Lined jobs order free) :
    InOrder jobs order :=
  { segment := ⟨free, lined.shape.chain, lined.inactive⟩, active := lined.active, ends := lined.ends }

theorem lined_fresh : Lined ({} : ApeSocket).jobs [] [0, 1] where
  shape := shape_init (by omega)
  active := by simp
  inactive := by decide
  idle := fun _ => rfl
  ends := by simp

/-- The active jobs stay in order exactly in the runs in which no job ends while another one waits behind it. -/
theorem in_order_iff (steps : List JobStep) :
    Throughout JobRun.step {} steps (fun run : JobRun => InOrder run.socket.jobs run.order) ↔
      EachStep JobRun.step {} steps EndsAlone := by
  apply @throughout_iff _ _ _ _ _ _ (fun run => ∃ free, Lined run.socket.jobs run.order free) _ _ ⟨_, lined_fresh⟩
  · rintro run ⟨free, lined⟩
    exact lined.inOrder
  · rintro ⟨socket, order⟩ input next ⟨free, lined⟩ alone stepped
    cases input with
    | request type =>
      obtain ⟨taken, slot, left, got, kept⟩ := @request_lined socket order free type lined
      simp only [JobRun.step, got, Except.ok.injEq] at stepped
      subst stepped
      exact ⟨left, kept⟩
    | finish =>
      rcases order with _ | ⟨job, _ | ⟨second, more⟩⟩
      · rw [finish_idle lined] at stepped
        cases stepped
        exact ⟨free, lined⟩
      · obtain ⟨after, ended, left, kept⟩ := finish_alone lined
        rw [ended] at stepped
        cases stepped
        exact ⟨left, kept⟩
      · have current := alone job lined.shape.chain.1 (lined.active job (by simp))
        exact absurd current (waiting_behind lined)
  · rintro ⟨socket, order⟩ input ⟨free, lined⟩ together
    cases input with
    | request type => exact absurd trivial together
    | finish =>
      rcases order with _ | ⟨job, _ | ⟨second, more⟩⟩
      · refine absurd ?_ together
        intro job head active
        rw [free_head lined head] at active
        cases active
      · refine absurd ?_ together
        intro other head _
        rw [lined.ends (by simp), ← head]
        exact lined.shape.chain.1.symm
      · exact finish_behind lined

def drainTwice : List JobStep := [.request .writev, .request .sendfile, .finish, .finish, .request .writev]

/-- After two jobs were drained in a row, the next one is queued behind a free head. -/
theorem head_free_while_active :
    ∃ run, runAll JobRun.step {} drainTwice = .ok run ∧ ¬ InOrder run.socket.jobs run.order ∧
      (∃ head, run.socket.jobs.head = some head ∧ (run.socket.jobs.node head).active = false) ∧
      ∃ slot ∈ run.order, (run.socket.jobs.node slot).active = true := by
  refine ⟨_, rfl, ?_, ⟨0, rfl, by decide⟩, 1, by decide, by decide⟩
  intro inOrder
  obtain ⟨free, chain, -⟩ := inOrder.segment
  cases chain.1

end ZapeProof
