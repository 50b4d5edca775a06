import Mathlib.Data.BitVec
import Zape.Ape.Ending
import Zape.Ape.Freeing

/-! The job list as a list of duties, and the packets that wait in it from the first to the last. -/
namespace ZapeProof

open Machine ZapeModel

/-- What a slot that was taken serves for; an idle one may still have a list, which is empty. -/
inductive Duty
  | idle (listed : Bool)
  | data (stock : List Packet)
  | shutdown

def Duty.stock : Duty → List Packet
  | .data stock => stock
  | .idle _ | .shutdown => []

def Duty.busy : Duty → Bool
  | .idle _ => false
  | .data _ | .shutdown => true

def Duty.isData : Duty → Bool
  | .data _ => true
  | .idle _ | .shutdown => false

def Duty.listed : Duty → Bool
  | .idle listed => listed
  | .data _ => true
  | .shutdown => false

/-- The flags of a slot without those that say what kind of a job it is. -/
def kindBits (flags : BitVec 32) : BitVec 32 := flags &&& ~~~(apePoolAllFlags ||| apeSocketJobActive)

def Empties (content : Job) (listed : Bool) : Prop :=
  listed = false ∧ content = .null ∨ listed = true ∧ ∃ plist, content = .data plist ∧ Stocked plist [] []

def Serves (flags : BitVec 32) (content : Job) : Duty → Prop
  | .idle listed => flags &&& apeSocketJobActive = 0#32 ∧
      (kindBits flags = 0#32 ∨ kindBits flags = apeSocketJobWritev) ∧ Empties content listed
  | .data stock => flags &&& apeSocketJobActive ≠ 0#32 ∧ kindBits flags = apeSocketJobWritev ∧
      ∃ plist pending, content = .data plist ∧ Stocked plist stock pending ∧ pending ≠ []
  | .shutdown => flags &&& apeSocketJobActive ≠ 0#32 ∧ kindBits flags = apeSocketJobShutdown ∧ content = .null

/-- A slot that was never taken. -/
def Unused (flags : BitVec 32) (content : Job) : Prop :=
  flags &&& apeSocketJobActive = 0#32 ∧ kindBits flags = 0#32 ∧ content = .null

/-- The slots that were taken, the current one last, and behind them those that never were. -/
structure Staffed (jobs : PoolList Job) (used : List (Nat × Duty)) (unused : List Nat) : Prop where
  shape : Shape jobs (used.map Prod.fst ++ unused)
  current : ∃ slot, jobs.current = some slot ∧ (used.map Prod.fst).getLast? = some slot
  serves : ∀ entry ∈ used, Serves (flagsOf jobs entry.1) (contents jobs entry.1) entry.2
  fresh : ∀ slot ∈ unused, Unused (flagsOf jobs slot) (contents jobs slot)

/-- All the jobs are active, and no two with data follow each other. -/
structure Busy (used : List (Nat × Duty)) : Prop where
  busy : ∀ entry ∈ used, entry.2.busy = true
  apart : used.IsChain fun left right => (left.2.isData && right.2.isData) = false

/-- Nothing was queued yet, or all that was queued has been sent. -/
def Resting (used : List (Nat × Duty)) : Prop := ∃ slot listed, used = [(slot, .idle listed)]

def stockpile (used : List (Nat × Duty)) : List Packet := used.flatMap fun entry => entry.2.stock

section Flags

theorem kindBits_taken (flags : BitVec 32) (type : JobType) :
    kindBits (flags ||| (apeSocketJobActive ||| type.flag)) = kindBits flags ||| type.flag := kind_taken flags type

theorem kindBits_released (flags : BitVec 32) : kindBits (flags &&& ~~~apeSocketJobActive) = kindBits flags := by
  rw [kindBits, kindBits, BitVec.and_assoc]
  exact congrArg (flags &&& ·) (by decide)

theorem kindBits_writev {flags : BitVec 32} (kind : kindBits flags = apeSocketJobWritev) :
    flags &&& apeSocketJobWritev ≠ 0#32 := by
  have masked : kindBits flags &&& apeSocketJobWritev = flags &&& apeSocketJobWritev := by
    rw [kindBits, BitVec.and_assoc]
    exact congrArg (flags &&& ·) (by decide)
  rw [← masked, kind]
  decide

theorem kindBits_shutdown {flags : BitVec 32} (kind : kindBits flags = apeSocketJobShutdown) :
    flags &&& apeSocketJobWritev = 0#32 := by
  have masked : kindBits flags &&& apeSocketJobWritev = flags &&& apeSocketJobWritev := by
    rw [kindBits, BitVec.and_assoc]
    exact congrArg (flags &&& ·) (by decide)
  rw [← masked, kind]
  decide

theorem Unused.idle {flags : BitVec 32} {content : Job} (unused : Unused flags content) :
    Serves flags content (.idle false) := ⟨unused.1, .inl unused.2.1, .inl ⟨rfl, unused.2.2⟩⟩

theorem Empties.stock {content : Job} {listed : Bool} (empties : Empties content listed) : JobStock content [] [] := by
  rcases empties with ⟨-, null⟩ | ⟨-, plist, list, stocked⟩
  · exact .inl ⟨null, rfl, rfl⟩
  · exact .inr ⟨plist, list, stocked⟩

theorem serves_active {flags : BitVec 32} {content : Job} {duty : Duty} (serves : Serves flags content duty)
    (busy : duty.busy = true) : flags &&& apeSocketJobActive ≠ 0#32 := by
  cases duty with
  | idle => cases busy
  | data stock => exact serves.1
  | shutdown => exact serves.1

theorem unused_new (address n pool : Nat) (node : Nat → PoolNode Job) (within : pool ≤ address ∧ address < pool + n) :
    Unused (apeNewPool node pool n address).flags (apeNewPool node pool n address).content := by
  simp only [apeNewPool, if_pos within]
  split
  · exact ⟨by decide, by decide, rfl⟩
  · exact ⟨by decide, by decide, rfl⟩

end Flags

theorem staffed_init : Staffed (apeInitPoolList 2) [(0, .idle false)] [1] where
  shape := shape_init (by omega)
  current := ⟨0, rfl, rfl⟩
  serves := by
    intro entry member
    cases List.mem_singleton.mp member
    exact (unused_new 0 2 0 (fun _ => { content := default }) (by omega)).idle
  fresh := by
    intro slot member
    cases List.mem_singleton.mp member
    exact unused_new 1 2 0 (fun _ => { content := default }) (by omega)

/-- Two job lists that differ at most in one of their slots, and in which slot is the current one. -/
structure AlikeOff (slot : Nat) (jobs next : PoolList Job) : Prop where
  nexts : nexts next = nexts jobs
  head : next.head = jobs.head
  queue : next.queue = jobs.queue
  count : next.count = jobs.count
  flags : ∀ address, address ≠ slot → flagsOf next address = flagsOf jobs address
  contents : ∀ address, address ≠ slot → contents next address = contents jobs address

section Staff

variable {jobs next : PoolList Job} {used front rest : List (Nat × Duty)} {unused : List Nat} {slot : Nat} {duty : Duty}

theorem alike_setContent (jobs : PoolList Job) (slot : Nat) (content : Job) :
    AlikeOff slot jobs (jobs.setContent slot content) where
  nexts := nexts_setContent jobs slot content
  head := rfl
  queue := rfl
  count := rfl
  flags address _ := congrFun (flagsOf_setContent jobs slot content) address
  contents address differ := by rw [contents_setContent, Function.update_of_ne differ]

theorem alike_setFlags (jobs : PoolList Job) (slot : Nat) (flags : BitVec 32) :
    AlikeOff slot jobs (jobs.setFlags slot flags) where
  nexts := nexts_setFlags jobs slot flags
  head := rfl
  queue := rfl
  count := rfl
  flags address differ := by rw [flagsOf_setFlags, Function.update_of_ne differ]
  contents address _ := congrFun (contents_setFlags jobs slot flags) address

theorem alike_take (jobs : PoolList Job) (slot : Nat) (bits : BitVec 32) : AlikeOff slot jobs (takeSlot jobs slot bits) :=
  let current := alike_setFlags { jobs with current := some slot } slot (flagsOf jobs slot ||| (apeSocketJobActive ||| bits))
  { nexts := current.nexts, head := rfl, queue := rfl, count := rfl, flags := current.flags, contents := current.contents }

theorem AlikeOff.trans {last : PoolList Job} (first : AlikeOff slot jobs next) (second : AlikeOff slot next last) :
    AlikeOff slot jobs last where
  nexts := second.nexts.trans first.nexts
  head := second.head.trans first.head
  queue := second.queue.trans first.queue
  count := second.count.trans first.count
  flags address differ := (second.flags address differ).trans (first.flags address differ)
  contents address differ := (second.contents address differ).trans (first.contents address differ)

theorem AlikeOff.shape (alike : AlikeOff slot jobs next) {nodes : List Nat} (shape : Shape jobs nodes) : Shape next nodes where
  chain := by
    rw [alike.nexts, alike.head]
    exact shape.chain
  nodup := shape.nodup
  below := by
    rw [alike.count]
    exact shape.below
  queue := by
    rw [alike.queue]
    exact shape.queue

theorem Staffed.head (staffed : Staffed jobs ((slot, duty) :: rest) unused) : jobs.head = some slot := staffed.shape.chain.1

theorem Staffed.last (staffed : Staffed jobs used unused) :
    ∃ front slot duty, used = front ++ [(slot, duty)] ∧ jobs.current = some slot := by
  obtain ⟨slot, current, last⟩ := staffed.current
  rcases List.eq_nil_or_concat used with rfl | ⟨front, ⟨other, duty⟩, rfl⟩
  · cases last
  · rw [List.concat_eq_append, List.map_append, List.getLast?_append] at last
    cases last
    exact ⟨front, other, duty, List.concat_eq_append, current⟩

theorem Staffed.first (staffed : Staffed jobs used unused) : ∃ slot duty rest, used = (slot, duty) :: rest := by
  obtain ⟨front, slot, duty, rfl, -⟩ := staffed.last
  cases front with
  | nil => exact ⟨slot, duty, [], rfl⟩
  | cons entry front => exact ⟨entry.1, entry.2, front ++ [(slot, duty)], rfl⟩

theorem Staffed.elsewhere (staffed : Staffed jobs used unused) (alike : AlikeOff slot jobs next) {entry : Nat × Duty}
    (member : entry ∈ used) (differ : entry.1 ≠ slot) : Serves (flagsOf next entry.1) (contents next entry.1) entry.2 := by
  rw [alike.flags _ differ, alike.contents _ differ]
  exact staffed.serves entry member

theorem Staffed.unused_elsewhere (staffed : Staffed jobs used unused) (alike : AlikeOff slot jobs next) {address : Nat}
    (member : address ∈ unused) (differ : address ≠ slot) : Unused (flagsOf next address) (contents next address) := by
  rw [alike.flags _ differ, alike.contents _ differ]
  exact staffed.fresh address member

/-- One slot of the list changes its duty, and all others keep theirs. -/
theorem staffed_update (staffed : Staffed jobs (front ++ (slot, duty) :: rest) unused) (alike : AlikeOff slot jobs next)
    (current : next.current = jobs.current) {other : Duty} (serves : Serves (flagsOf next slot) (contents next slot) other) :
    Staffed next (front ++ (slot, other) :: rest) unused := by
  have addresses : (front ++ (slot, other) :: rest).map Prod.fst = (front ++ (slot, duty) :: rest).map Prod.fst := by simp
  obtain ⟨nodup, -, apart⟩ := List.nodup_append.mp staffed.shape.nodup
  rw [List.map_append, List.map_cons, List.nodup_append, List.nodup_cons] at nodup
  refine { shape := ?_, current := ?_, serves := ?_, fresh := ?_ }
  · rw [addresses]
    exact alike.shape staffed.shape
  · rw [current, addresses]
    exact staffed.current
  · intro entry member
    rcases List.mem_append.mp member with before | here
    · have differ : entry.1 ≠ slot := nodup.2.2 entry.1 (List.mem_map_of_mem before) slot (by simp)
      exact staffed.elsewhere alike (List.mem_append_left _ before) differ
    · rcases List.mem_cons.mp here with rfl | behind
      · exact serves
      · have differ : entry.1 ≠ slot := fun same => nodup.2.1.1 (List.mem_map.mpr ⟨entry, behind, same⟩)
        exact staffed.elsewhere alike (List.mem_append_right _ (List.mem_cons_of_mem _ behind)) differ
  · intro address member
    refine staffed.unused_elsewhere alike member fun same => ?_
    exact apart slot (by simp) address member same.symm

/-- The first slot behind those that were taken is taken too. -/
theorem staffed_append (staffed : Staffed jobs used (slot :: unused)) (alike : AlikeOff slot jobs next)
    (current : next.current = some slot) (serves : Serves (flagsOf next slot) (contents next slot) duty) :
    Staffed next (used ++ [(slot, duty)]) unused := by
  obtain ⟨-, behind, apart⟩ := List.nodup_append.mp staffed.shape.nodup
  refine { shape := ?_, current := ⟨slot, current, by simp⟩, serves := ?_, fresh := ?_ }
  · rw [List.map_append, List.append_assoc]
    exact alike.shape staffed.shape
  · intro entry member
    rcases List.mem_append.mp member with before | last
    · exact staffed.elsewhere alike before (apart entry.1 (List.mem_map_of_mem before) slot (by simp))
    · cases List.mem_singleton.mp last
      exact serves
  · intro address member
    have differ : address ≠ slot := ne_of_mem_of_not_mem member (List.nodup_cons.mp behind).1
    exact staffed.unused_elsewhere alike (List.mem_cons_of_mem slot member) differ

theorem staffed_grow (staffed : Staffed jobs used []) :
    Staffed (apeGrowPool jobs 2).1 used [jobs.count, jobs.count + 1] := by
  have old : ∀ address ∈ used.map Prod.fst, ¬ (jobs.count ≤ address ∧ address < jobs.count + 2) := by
    intro address member
    have below := staffed.shape.below address (List.mem_append_left _ member)
    omega
  have grown := shape_grow staffed.shape (show 0 < 2 by omega)
  rw [List.append_nil] at grown
  refine { shape := grown, current := staffed.current, serves := ?_, fresh := ?_ }
  · intro entry member
    have outside := old entry.1 (List.mem_map_of_mem member)
    rw [flagsOf_grow, contents_grow, if_neg outside, if_neg outside]
    exact staffed.serves entry member
  · intro address member
    have inside : jobs.count ≤ address ∧ address < jobs.count + 2 := by
      rcases List.mem_cons.mp member with rfl | last
      · omega
      · rw [List.mem_singleton.mp last]
        omega
    rw [flagsOf_grow, contents_grow, if_pos inside, if_pos inside]
    split
    · exact ⟨by decide, by decide, rfl⟩
    · exact ⟨by decide, by decide, rfl⟩

/-- The slot that a request takes is the current one, or the first one behind it, of a new block if there is none. -/
theorem staffed_take {socket : ApeSocket} (staffed : Staffed socket.jobs used unused) (type : JobType) :
    ∃ front slot duty, used = front ++ [(slot, duty)] ∧
      (Accepts socket.jobs slot type.flag ∧ apeSocketJobGetSlot socket type.flag =
          .ok ({ socket with jobs := takeSlot socket.jobs slot type.flag }, slot) ∨
        ¬ Accepts socket.jobs slot type.flag ∧ ∃ jobs other left, Staffed jobs used (other :: left) ∧
          apeSocketJobGetSlot socket type.flag = .ok ({ socket with jobs := takeSlot jobs other type.flag }, other)) := by
  obtain ⟨front, slot, duty, rfl, current⟩ := staffed.last
  refine ⟨front, slot, duty, rfl, ?_⟩
  have shape := staffed.shape
  rw [List.map_append, List.append_assoc] at shape
  rcases @getSlot_cases socket (front.map Prod.fst) unused slot type.flag shape current with
    ⟨accepts, got⟩ | ⟨refuses, rfl, got⟩ | ⟨refuses, other, left, rfl, got⟩
  · exact .inl ⟨accepts, got⟩
  · exact .inr ⟨refuses, _, _, _, staffed_grow staffed, got⟩
  · exact .inr ⟨refuses, _, other, left, staffed, got⟩

theorem taken_flags (jobs : PoolList Job) (slot : Nat) (type : JobType) :
    flagsOf (takeSlot jobs slot type.flag) slot &&& apeSocketJobActive ≠ 0#32 ∧
      kindBits (flagsOf (takeSlot jobs slot type.flag) slot) = kindBits (flagsOf jobs slot) ||| type.flag := by
  rw [takeSlot_flags, Function.update_self]
  exact ⟨taken_active _ _, kindBits_taken _ type⟩

/-- The taken slot of a `WRITEV` job is given its list. -/
theorem serves_data {plist : PoolList Packet} {stock : List Packet} {pending : List (List Byte)}
    (kind : kindBits (flagsOf jobs slot) = 0#32 ∨ kindBits (flagsOf jobs slot) = apeSocketJobWritev)
    (stocked : Stocked plist stock pending) (some_pending : pending ≠ []) :
    Serves (flagsOf ((takeSlot jobs slot apeSocketJobWritev).setContent slot (.data plist)) slot)
      (contents ((takeSlot jobs slot apeSocketJobWritev).setContent slot (.data plist)) slot) (.data stock) := by
  obtain ⟨active, taken⟩ := taken_flags jobs slot .writev
  rw [flagsOf_setContent, contents_setContent, Function.update_self]
  refine ⟨active, taken.trans ?_, plist, pending, rfl, stocked, some_pending⟩
  rcases kind with none | writev
  · rw [none]
    rfl
  · rw [writev]
    rfl

/-- What a slot that takes data held before: it is the last one in use, or a new one behind a shutdown. -/
def Extends (used front : List (Nat × Duty)) (slot : Nat) (stock : List Packet) : Prop :=
  (∃ duty, used = front ++ [(slot, duty)] ∧ duty ≠ .shutdown ∧ duty.stock = stock) ∨
    used = front ∧ stock = [] ∧ ∃ before other, front = before ++ [(other, .shutdown)]

theorem Extends.stockpile {stock : List Packet} (extend : Extends used front slot stock) (packet : Packet) :
    stockpile (front ++ [(slot, .data (stock ++ [packet]))]) = stockpile used ++ [packet] := by
  rcases extend with ⟨duty, rfl, -, rfl⟩ | ⟨rfl, rfl, -⟩
  · simp [ZapeProof.stockpile, Duty.stock]
  · simp [ZapeProof.stockpile, Duty.stock]

theorem staffed_takeData {socket : ApeSocket} (staffed : Staffed socket.jobs used unused) :
    ∃ next front slot stock pending left,
      apeSocketJobGetSlot socket apeSocketJobWritev = .ok ({ socket with jobs := next }, slot) ∧
      JobStock (next.node slot).content stock pending ∧ Extends used front slot stock ∧
      ∀ plist more others, Stocked plist more others → others ≠ [] →
        Staffed (next.setContent slot (.data plist)) (front ++ [(slot, .data more)]) left := by
  obtain ⟨front, slot, duty, rfl, ⟨accepts, got⟩ | ⟨refuses, jobs, other, left, grown, got⟩⟩ := staffed_take staffed .writev
  · have serves := staffed.serves (slot, duty) (by simp)
    have held : contents (takeSlot socket.jobs slot apeSocketJobWritev) slot = contents socket.jobs slot :=
      congrFun (takeSlot_contents _ _ _) slot
    obtain ⟨stock, pending, kind, holds, data, same⟩ : ∃ stock pending,
        (kindBits (flagsOf socket.jobs slot) = 0#32 ∨ kindBits (flagsOf socket.jobs slot) = apeSocketJobWritev) ∧
          JobStock (contents socket.jobs slot) stock pending ∧ duty ≠ .shutdown ∧ duty.stock = stock := by
      cases duty with
      | idle => exact ⟨[], [], serves.2.1, serves.2.2.stock, by simp, rfl⟩
      | data stock =>
        obtain ⟨-, kind, plist, pending, content, stocked, -⟩ := serves
        exact ⟨stock, pending, .inr kind, .inr ⟨plist, content, stocked⟩, by simp, rfl⟩
      | shutdown =>
        rcases accepts with ⟨-, data⟩ | inactive
        · exact absurd (kindBits_shutdown serves.2.1) data
        · exact absurd inactive serves.1
    refine ⟨_, front, slot, stock, pending, unused, got, ?_, .inl ⟨duty, rfl, data, same⟩, ?_⟩
    · rw [← held] at holds
      exact holds
    · intro plist more others stocked some_others
      have alike := (alike_take socket.jobs slot apeSocketJobWritev).trans (alike_setContent _ slot (.data plist))
      obtain ⟨first, points, last⟩ := staffed.current
      refine staffed_update staffed alike ?_ (serves_data kind stocked some_others)
      rw [points]
      rw [List.map_append, List.getLast?_append] at last
      cases last
      rfl
  · have unused := grown.fresh other (by simp)
    refine ⟨_, _, other, [], [], left, got, .inl ⟨?_, rfl, rfl⟩, .inr ⟨rfl, rfl, front, slot, ?_⟩, ?_⟩
    · exact (congrFun (takeSlot_contents _ _ _) other).trans unused.2.2
    · have serves := staffed.serves (slot, duty) (by simp)
      cases duty with
      | idle => exact absurd (.inr serves.1) refuses
      | data stock => exact absurd (.inl ⟨rfl, kindBits_writev serves.2.1⟩) refuses
      | shutdown => rfl
    · intro plist more others stocked some_others
      have alike := (alike_take jobs other apeSocketJobWritev).trans (alike_setContent _ other (.data plist))
      exact staffed_append grown alike rfl (serves_data (.inl unused.2.1) stocked some_others)

/-- Behind active jobs a shutdown is queued in a slot of its own. -/
theorem staffed_takeShutdown {socket : ApeSocket} (staffed : Staffed socket.jobs used unused) (busy : Busy used) :
    ∃ next slot left, apeSocketJobGetSlot socket apeSocketJobShutdown = .ok ({ socket with jobs := next }, slot) ∧
      Staffed next (used ++ [(slot, .shutdown)]) left := by
  obtain ⟨front, slot, duty, rfl, ⟨accepts, -⟩ | ⟨-, jobs, other, left, grown, got⟩⟩ := staffed_take staffed .shutdown
  · have serves := staffed.serves (slot, duty) (by simp)
    have active := busy.busy (slot, duty) (by simp)
    have inactive : flagsOf socket.jobs slot &&& apeSocketJobActive = 0#32 := by
      rcases accepts with ⟨writev, -⟩ | inactive
      · exact absurd writev (by decide)
      · exact inactive
    cases duty with
    | idle => cases active
    | data stock => exact absurd inactive serves.1
    | shutdown => exact absurd inactive serves.1
  · have unused := grown.fresh other (by simp)
    obtain ⟨active, taken⟩ := taken_flags jobs other .shutdown
    refine ⟨_, other, left, got, staffed_append grown (alike_take jobs other apeSocketJobShutdown) rfl ?_⟩
    refine ⟨active, ?_, (congrFun (takeSlot_contents _ _ _) other).trans unused.2.2⟩
    rw [show apeSocketJobShutdown = JobType.flag .shutdown from rfl, taken, unused.2.1]
    rfl

/-- Another list of packets in the job at the head. -/
theorem staffed_restock {stock more : List Packet} (staffed : Staffed jobs ((slot, .data stock) :: rest) unused)
    {plist : PoolList Packet} {pending : List (List Byte)} (stocked : Stocked plist more pending) (some_pending : pending ≠ []) :
    Staffed (jobs.setContent slot (.data plist)) ((slot, .data more) :: rest) unused := by
  obtain ⟨active, kind, -⟩ := staffed.serves (slot, .data stock) (by simp)
  refine @staffed_update _ _ [] _ _ _ _ staffed (alike_setContent jobs slot (.data plist)) rfl _ ?_
  rw [flagsOf_setContent, contents_setContent, Function.update_self]
  exact ⟨active, kind, plist, pending, rfl, stocked, some_pending⟩

/-- The job at the head ends: its slot comes behind all others, to be taken next. -/
theorem staffed_finish {stock : List Packet} (staffed : Staffed jobs ((slot, .data stock) :: rest) unused)
    {plist : PoolList Packet} (stocked : Stocked plist [] []) :
    ∃ moved first, apePoolHeadToCurrent (released (jobs.setContent slot (.data plist)) slot) = .ok (moved, first) ∧
      Staffed moved (rest ++ [(slot, .idle true)]) unused := by
  obtain ⟨-, kind, -⟩ := staffed.serves (slot, .data stock) (by simp)
  let ended := released (jobs.setContent slot (.data plist)) slot
  have alike : AlikeOff slot jobs ended := (alike_setContent jobs slot (.data plist)).trans (alike_setFlags _ slot _)
  have idles : Serves (flagsOf ended slot) (contents ended slot) (.idle true) := by
    have flags : flagsOf ended slot = flagsOf jobs slot &&& ~~~apeSocketJobActive := by
      simp only [ended, released, flagsOf_setFlags, Function.update_self, flagsOf_setContent]
    have content : contents ended slot = .data plist := by
      simp only [ended, released, contents_setFlags, contents_setContent, Function.update_self]
    rw [flags, content]
    exact ⟨released_inactive _, .inr ((kindBits_released _).trans kind), .inr ⟨rfl, plist, rfl, stocked⟩⟩
  have idle : Staffed ended ((slot, .idle true) :: rest) unused := @staffed_update _ _ [] _ _ _ _ staffed alike rfl _ idles
  obtain ⟨current, points, last⟩ := idle.current
  obtain ⟨moved, first, turned, nodes, flags, content, now⟩ := headToCurrent_last idle.shape (points.trans last.symm)
  refine ⟨moved, first, turned, ?_⟩
  refine { shape := ?_, current := ⟨slot, now, by simp⟩, serves := ?_, fresh := ?_ }
  · rw [List.map_append, List.append_assoc]
    exact nodes
  · intro entry member
    rw [flags, content]
    apply idle.serves
    rw [List.mem_append] at member
    exact member.elim (List.mem_cons_of_mem _) fun here => List.mem_singleton.mp here ▸ List.mem_cons_self
  · intro address member
    rw [flags, content]
    exact idle.fresh address member

end Staff

section Order

variable {used front : List (Nat × Duty)} {stock : List Packet} {slot : Nat}

theorem Busy.shutdown (busy : Busy used) (slot : Nat) : Busy (used ++ [(slot, .shutdown)]) where
  busy := by
    intro entry member
    rcases List.mem_append.mp member with before | last
    · exact busy.busy entry before
    · cases List.mem_singleton.mp last
      rfl
  apart := by
    refine List.isChain_append.mpr ⟨busy.apart, .singleton _, ?_⟩
    intro left _ right last
    cases last
    exact Bool.and_false _

theorem Busy.tail {entry : Nat × Duty} (busy : Busy (entry :: used)) : Busy used where
  busy other member := busy.busy other (List.mem_cons_of_mem entry member)
  apart := busy.apart.tail

theorem Busy.restocked (busy : Busy ((slot, .data stock) :: used)) (more : List Packet) :
    Busy ((slot, .data more) :: used) where
  busy := by simpa [Duty.busy] using busy.tail.busy
  apart := by
    cases used with
    | nil => exact .singleton _
    | cons entry used => exact List.isChain_cons_cons.mpr (List.isChain_cons_cons.mp busy.apart)

/-- Data that are queued become a job of their own exactly where the last job is not one with data. -/
theorem busy_extends (kept : Resting used ∨ Busy used) (extend : Extends used front slot stock) (more : List Packet) :
    Busy (front ++ [(slot, .data more)]) := by
  rcases extend with ⟨duty, rfl, data, -⟩ | ⟨rfl, -, before, other, rfl⟩
  · rcases kept with ⟨idle, listed, resting⟩ | busy
    · obtain ⟨rfl, -⟩ := List.append_inj' (show front ++ [(slot, duty)] = [] ++ [(idle, .idle listed)] from resting) rfl
      exact { busy := by simp [Duty.busy], apart := .singleton _ }
    · have isData : duty.isData = true := by
        have active := busy.busy (slot, duty) (by simp)
        cases duty with
        | idle => cases active
        | data _ => rfl
        | shutdown => exact absurd rfl data
      obtain ⟨chain, -, link⟩ := List.isChain_append.mp busy.apart
      refine { busy := ?_, apart := List.isChain_append.mpr ⟨chain, .singleton _, ?_⟩ }
      · intro entry member
        rcases List.mem_append.mp member with earlier | last
        · exact busy.busy entry (List.mem_append_left _ earlier)
        · cases List.mem_singleton.mp last
          rfl
      · intro left ends right last
        cases last
        have this := link left ends (slot, duty) rfl
        rw [isData] at this
        exact this
  · have busy : Busy (before ++ [(other, .shutdown)]) := by
      rcases kept with ⟨idle, listed, resting⟩ | busy
      · cases List.append_inj_right' (show before ++ [(other, Duty.shutdown)] = [] ++ [(idle, .idle listed)] from resting) rfl
      · exact busy
    refine { busy := ?_, apart := List.isChain_append.mpr ⟨busy.apart, .singleton _, ?_⟩ }
    · intro entry member
      rcases List.mem_append.mp member with earlier | last
      · exact busy.busy entry earlier
      · cases List.mem_singleton.mp last
        rfl
    · intro left ends right _
      rw [List.getLast?_append] at ends
      cases ends
      rfl

end Order

/-- The slots of a list, one after the other. -/
def addressesFrom {α : Type} (list : PoolList α) : Nat → Option Nat → List Nat
  | 0, _ | _, none => []
  | slots + 1, some address => address :: addressesFrom list slots (list.node address).next

def addresses {α : Type} (list : PoolList α) : List Nat := addressesFrom list list.count list.head

/-- The packets with data in a packet list. -/
def packetsIn (plist : PoolList Packet) : List Packet :=
  ((addresses plist).map (contents plist)).filter fun packet => packet.data.isSome

def packetsOf : Job → List Packet
  | .data plist => packetsIn plist
  | .null | .fd _ => []

/-- All packets with data that the job list of a socket leads to. -/
def queuedPackets (jobs : PoolList Job) : List Packet := (addresses jobs).flatMap fun slot => packetsOf (contents jobs slot)

section Queued

variable {α : Type} {list : PoolList α} {nodes : List Nat}

theorem addresses_from {start : Option Nat} {slots : Nat} (chain : Segment (nexts list) start nodes none)
    (enough : nodes.length ≤ slots) : addressesFrom list slots start = nodes := by
  induction nodes generalizing start slots with
  | nil =>
    cases chain
    cases slots <;> rfl
  | cons address nodes ih =>
    obtain ⟨rfl, rest⟩ := chain
    obtain ⟨slots, rfl⟩ : ∃ left, slots = left + 1 := ⟨slots - 1, by simp at enough; omega⟩
    rw [addressesFrom]
    exact congrArg (address :: ·) (ih rest (by simpa using enough))

theorem shape_addresses (shape : Shape list nodes) : addresses list = nodes := addresses_from shape.chain shape.short

theorem stocked_packets {plist : PoolList Packet} {stock : List Packet} {pending : List (List Byte)}
    (stocked : Stocked plist stock pending) : packetsIn plist = stock := by
  obtain ⟨filled, spare, more, slots, rfl⟩ := stocked
  have held : ∀ address ∈ filled, (contents plist address).data.isSome = true := by
    have carries := slots.carries
    clear slots
    induction carries with
    | nil => simp
    | @cons slot suffix filled pending first others ih =>
      intro address member
      rcases List.mem_cons.mp member with rfl | later
      · obtain ⟨data, carries⟩ := first
        rw [carries.stored]
        rfl
      · exact ih address later
  have empty : ∀ address ∈ spare :: more, ¬ (contents plist address).data.isSome = true := by
    intro address member
    rw [slots.empty address member]
    simp
  rw [packetsIn, shape_addresses slots.shape, List.map_append, List.filter_append]
  rw [List.filter_eq_self.mpr, List.filter_eq_nil_iff.mpr, List.append_nil]
  · intro packet member
    obtain ⟨address, here, rfl⟩ := List.mem_map.mp member
    exact empty address here
  · intro packet member
    obtain ⟨address, here, rfl⟩ := List.mem_map.mp member
    exact held address here

theorem stock_packets {content : Job} {stock : List Packet} {pending : List (List Byte)}
    (holds : JobStock content stock pending) : packetsOf content = stock := by
  rcases holds with ⟨rfl, rfl, -⟩ | ⟨plist, rfl, stocked⟩
  · rfl
  · exact stocked_packets stocked

theorem serves_packets {flags : BitVec 32} {content : Job} {duty : Duty} (serves : Serves flags content duty) :
    packetsOf content = duty.stock := by
  cases duty with
  | idle => exact stock_packets serves.2.2.stock
  | data stock =>
    obtain ⟨-, -, plist, pending, rfl, stocked, -⟩ := serves
    exact stocked_packets stocked
  | shutdown =>
    rw [serves.2.2]
    rfl

theorem staffed_packets {jobs : PoolList Job} {used : List (Nat × Duty)} {unused : List Nat}
    (staffed : Staffed jobs used unused) : queuedPackets jobs = stockpile used := by
  have none : unused.flatMap (fun slot => packetsOf (contents jobs slot)) = [] := by
    rw [List.flatMap_eq_nil_iff]
    intro slot member
    rw [(staffed.fresh slot member).2.2]
    rfl
  rw [queuedPackets, shape_addresses staffed.shape, List.flatMap_append, none, List.append_nil, List.flatMap_map]
  exact List.flatMap_congr fun entry member => serves_packets (staffed.serves entry member)

end Queued

/-- What the memory of these packets is released by. -/
def releases (packets : List Packet) : List SocketEvent :=
  packets.flatMap fun packet => apeSocketReleaseData packet.pointer packet.dataType

/-- The bytes of these packets that were not sent, as the code counts them. -/
def unsent (packets : List Packet) : SizeT := (packets.map fun packet => packet.len - packet.offset).sum

section Free

variable {jobs : PoolList Job} {used : List (Nat × Duty)} {unused : List Nat}

theorem releases_cons (packet : Packet) (packets : List Packet) :
    releases (packet :: packets) = apeSocketReleaseData packet.pointer packet.dataType ++ releases packets := List.flatMap_cons

theorem releases_append (left right : List Packet) : releases (left ++ right) = releases left ++ releases right :=
  List.flatMap_append

theorem unsent_append (left right : List Packet) : unsent (left ++ right) = unsent left + unsent right := by
  rw [unsent, unsent, unsent, List.map_append, List.sum_append]

/-- The world once these packets were cleaned away. -/
def cleaned (world : World) (packets : List Packet) : World :=
  { world with
    totalMemoryBuffered := world.totalMemoryBuffered - unsent packets
    out := world.out ++ releases packets }

theorem cleaned_nil (world : World) : cleaned world [] = world := by simp [cleaned, unsent, releases]

theorem minus_sum (total left right : SizeT) : total - left - right = total - (left + right) := by
  bv_omega

theorem cleaned_append (world : World) (left right : List Packet) :
    cleaned (cleaned world left) right = cleaned world (left ++ right) := by
  simp only [cleaned, unsent_append, releases_append, List.append_assoc, minus_sum]

theorem clean_slots {plist : PoolList Packet} (slots : List Nat) (world : World) :
    slots.foldl (fun world slot => apeSocketPacketPoolCleaner slot (plist.node slot) world) world =
      cleaned world ((slots.map (contents plist)).filter fun packet => packet.data.isSome) := by
  induction slots generalizing world with
  | nil => exact (cleaned_nil world).symm
  | cons slot slots ih =>
    rw [List.foldl_cons, List.map_cons]
    cases held : (contents plist slot).data with
    | none =>
      have skipped : apeSocketPacketPoolCleaner slot (plist.node slot) world = world := by
        rw [apeSocketPacketPoolCleaner, show (plist.node slot).content.data = none from held]
      rw [skipped, ih world, List.filter_cons_of_neg (by simp [held])]
    | some data =>
      have released : apeSocketPacketPoolCleaner slot (plist.node slot) world = cleaned world [contents plist slot] := by
        rw [apeSocketPacketPoolCleaner, show (plist.node slot).content.data = some data from held]
        simp [cleaned, unsent, releases, World.emit, contents]
      rw [released, ih, List.filter_cons_of_pos (by simp [held]), cleaned_append, List.singleton_append]

theorem clean_stocked {plist : PoolList Packet} {stock : List Packet} {pending : List (List Byte)}
    (stocked : Stocked plist stock pending) (world : World) :
    apeDestroyPoolWithCleaner apeSocketPacketPoolCleaner plist world =
      cleaned world stock := by
  have held := stocked_packets stocked
  obtain ⟨filled, spare, more, slots, -⟩ := stocked
  rw [packetsIn, shape_addresses slots.shape] at held
  rw [destroy_nodes slots.shape, ← held]
  exact clean_slots _ world

/-- The lists that are destroyed are those of the active jobs with data. -/
def dismissed (used : List (Nat × Duty)) : List Nat := (used.filter fun entry => entry.2.isData).map Prod.fst

theorem clean_job (slot : Nat) {duty : Duty} (serves : Serves (flagsOf jobs slot) (contents jobs slot) duty)
    (freeing : Freeing) :
    apeSocketJobPoolCleaner slot (jobs.node slot) freeing =
      .ok { world := cleaned freeing.world duty.stock, destroyed := freeing.destroyed ++ dismissed [(slot, duty)] } := by
  cases duty with
  | idle =>
    rw [apeSocketJobPoolCleaner, (inactive_iff jobs slot).mpr serves.1, show Duty.stock (.idle _) = [] from rfl, cleaned_nil]
    simp [dismissed, Duty.isData]
  | data stock =>
    obtain ⟨active, kind, plist, pending, content, stocked, -⟩ := serves
    rw [apeSocketJobPoolCleaner, (active_iff jobs slot).mpr active, if_pos rfl]
    simp only [show (jobs.node slot).flags &&& ~~~(apePoolAllFlags ||| apeSocketJobActive) = apeSocketJobWritev from kind,
      show (jobs.node slot).content = .data plist from content, ite_true, clean_stocked stocked freeing.world]
    rfl
  | shutdown =>
    obtain ⟨active, kind, -⟩ := serves
    have writev : apeSocketJobShutdown ≠ apeSocketJobWritev := by decide
    have sendfile : apeSocketJobShutdown ≠ apeSocketJobSendfile := by decide
    rw [apeSocketJobPoolCleaner, (active_iff jobs slot).mpr active, if_pos rfl, show Duty.stock .shutdown = [] from rfl,
      cleaned_nil]
    simp only [show (jobs.node slot).flags &&& ~~~(apePoolAllFlags ||| apeSocketJobActive) = apeSocketJobShutdown from kind,
      if_neg writev, if_neg sendfile]
    simp [dismissed, Duty.isData]

theorem clean_used (serves : ∀ entry ∈ used, Serves (flagsOf jobs entry.1) (contents jobs entry.1) entry.2)
    (freeing : Freeing) :
    (used.map Prod.fst).foldl
        (fun (freeing : Except Fault Freeing) slot => freeing.bind (apeSocketJobPoolCleaner slot (jobs.node slot)))
        (.ok freeing) =
      .ok { world := cleaned freeing.world (stockpile used), destroyed := freeing.destroyed ++ dismissed used } := by
  induction used generalizing freeing with
  | nil =>
    rw [show stockpile [] = [] from rfl, cleaned_nil]
    simp [dismissed]
  | cons entry used ih =>
    have first : stockpile (entry :: used) = entry.2.stock ++ stockpile used := List.flatMap_cons
    have parts : dismissed (entry :: used) = dismissed [entry] ++ dismissed used := by
      rw [dismissed, dismissed, dismissed, ← List.map_append, ← List.filter_append, List.singleton_append]
    rw [List.map_cons, List.foldl_cons, Except.bind, clean_job entry.1 (serves entry (by simp)) freeing,
      ih (fun other member => serves other (List.mem_cons_of_mem entry member)), cleaned_append, first, parts,
      List.append_assoc]

/-- Freeing a socket releases the packets that are still queued, and no others. -/
theorem free_staffed {world : World} (staffed : Staffed world.socket.jobs used unused) :
    world.apeSocketFree = .ok { world := cleaned world (stockpile used), destroyed := dismissed used } := by
  have others := @clean_used world.socket.jobs (unused.map fun slot => (slot, .idle false)) (by
      intro entry member
      obtain ⟨slot, fresh, rfl⟩ := List.mem_map.mp member
      exact (staffed.fresh slot fresh).idle)
    { world := cleaned world (stockpile used), destroyed := dismissed used }
  have slots : (unused.map fun slot => (slot, Duty.idle false)).map Prod.fst = unused := by
    rw [List.map_map]
    exact List.map_id unused
  have none : stockpile (unused.map fun slot => (slot, Duty.idle false)) = [] ∧
      dismissed (unused.map fun slot => (slot, Duty.idle false)) = [] := by
    simp [stockpile, dismissed, Duty.stock, Duty.isData]
  rw [slots, none.1, none.2, cleaned_nil, List.append_nil] at others
  rw [World.apeSocketFree, destroy_nodes staffed.shape, List.foldl_append, clean_used staffed.serves { world },
    List.nil_append, others]

end Free

end ZapeProof
