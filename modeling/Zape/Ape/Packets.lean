import Zape.Ape.Jobs
import Zape.Ape.Shape
import Mathlib.Data.List.Perm.Subperm

/-! A packet list as a queue of byte sequences that wait to be sent. -/
namespace ZapeProof

open Machine ZapeModel

/-- The packet's data lies in memory, and this much of it is not sent yet. -/
structure Carries (packet : Packet) (data suffix : List Byte) : Prop where
  stored : packet.data = some data
  object : data.length < 2 ^ 63
  len : packet.len = BitVec.ofNat 64 data.length
  inside : packet.offset.toNat < data.length
  unsent : suffix = data.drop packet.offset.toNat

section Sizes

theorem toNat_ofNat_size {count : Nat} (short : count < 2 ^ 63) : (BitVec.ofNat 64 count).toNat = count := by
  rw [BitVec.toNat_ofNat]
  omega

variable {packet : Packet} {data suffix : List Byte}

theorem Carries.length (carries : Carries packet data suffix) :
    suffix.length = data.length - packet.offset.toNat := by
  rw [carries.unsent, List.length_drop]

theorem Carries.positive (carries : Carries packet data suffix) : 0 < suffix.length := by
  have inside := carries.inside
  rw [carries.length]
  omega

theorem Carries.short (carries : Carries packet data suffix) : suffix.length < 2 ^ 63 := by
  have object := carries.object
  rw [carries.length]
  omega

theorem Carries.remaining (carries : Carries packet data suffix) :
    packet.len - packet.offset = BitVec.ofNat 64 suffix.length := by
  have object := carries.object
  have inside := carries.inside
  rw [carries.length, carries.len]
  apply BitVec.eq_of_toNat_eq
  rw [BitVec.toNat_sub, BitVec.toNat_ofNat, BitVec.toNat_ofNat]
  omega

theorem Carries.rest (carries : Carries packet data suffix) : packet.rest data = suffix := by
  have remaining := carries.remaining
  rw [Packet.rest, remaining, toNat_ofNat_size carries.short, ← carries.unsent]
  exact List.take_length

/-- `n` less the size of a packet, as the code computes it. -/
theorem sub_size_slt {count size : Nat} (counted : count < 2 ^ 63) (sized : size < 2 ^ 63) :
    (BitVec.ofNat 64 count - BitVec.ofNat 64 size).slt 0#64 = decide (count < size) := by
  rw [BitVec.slt, BitVec.toInt_eq_toNat_cond, BitVec.toNat_sub, BitVec.toNat_ofNat, BitVec.toNat_ofNat]
  simp only [BitVec.toInt_zero, decide_eq_decide]
  split <;> omega

theorem Carries.advance (carries : Carries packet data suffix) {count : Nat} (part : count < suffix.length) :
    Carries { packet with offset := packet.len + (BitVec.ofNat 64 count - BitVec.ofNat 64 suffix.length) } data
      (suffix.drop count) := by
  have object := carries.object
  have inside := carries.inside
  have length := carries.length
  have moved : (packet.len + (BitVec.ofNat 64 count - BitVec.ofNat 64 suffix.length)).toNat =
      packet.offset.toNat + count := by
    rw [carries.len, BitVec.toNat_add, BitVec.toNat_sub, BitVec.toNat_ofNat, BitVec.toNat_ofNat, BitVec.toNat_ofNat]
    omega
  refine { stored := carries.stored, object, len := carries.len, inside := ?_, unsent := ?_ }
  · rw [moved]
    omega
  · rw [moved, carries.unsent, List.drop_drop]

end Sizes

/-- The filled slots of a packet list, and behind them at least one spare slot, the current one. -/
structure Slots (plist : PoolList Packet) (filled : List Nat) (spare : Nat) (more : List Nat)
    (pending : List (List Byte)) : Prop where
  shape : Shape plist (filled ++ spare :: more)
  current : plist.current = some spare
  empty : ∀ slot ∈ spare :: more, (contents plist slot).data = none
  carries : List.Forall₂ (fun slot suffix => ∃ data, Carries (contents plist slot) data suffix) filled pending

/-- The byte sequences that a packet list holds, in the order in which they are to be sent. -/
def Packets (plist : PoolList Packet) (pending : List (List Byte)) : Prop :=
  ∃ filled spare more, Slots plist filled spare more pending

/-- The same, and the packets that hold them. -/
def Stocked (plist : PoolList Packet) (packets : List Packet) (pending : List (List Byte)) : Prop :=
  ∃ filled spare more, Slots plist filled spare more pending ∧ filled.map (contents plist) = packets

section Slots

variable {plist : PoolList Packet} {stock : List Packet} {pending : List (List Byte)} {suffix data : List Byte}

theorem Stocked.packets (stocked : Stocked plist stock pending) : Packets plist pending := by
  obtain ⟨filled, spare, more, slots, -⟩ := stocked
  exact ⟨filled, spare, more, slots⟩

theorem Packets.stocked (packets : Packets plist pending) : ∃ stock, Stocked plist stock pending := by
  obtain ⟨filled, spare, more, slots⟩ := packets
  exact ⟨_, filled, spare, more, slots, rfl⟩

theorem Slots.apart {filled more : List Nat} {spare slot : Nat} (slots : Slots plist filled spare more pending)
    (member : slot ∈ spare :: more) : slot ∉ filled :=
  fun other => (List.nodup_append.mp slots.shape.nodup).2.2 slot other slot member rfl

theorem carries_congr {list other : PoolList Packet} {filled : List Nat}
    (same : ∀ slot ∈ filled, contents other slot = contents list slot)
    (carries : List.Forall₂ (fun slot suffix => ∃ data, Carries (contents list slot) data suffix) filled pending) :
    List.Forall₂ (fun slot suffix => ∃ data, Carries (contents other slot) data suffix) filled pending := by
  induction carries with
  | nil => exact .nil
  | @cons slot suffix filled pending first others ih =>
    refine .cons ?_ (ih fun other member => same other (by simp [member]))
    rw [same slot (by simp)]
    exact first

theorem contents_init (n : Nat) : contents (apeInitPoolList n : PoolList Packet) = fun _ => {} := by
  funext slot
  by_cases inside : slot < n
  · simp [contents, apeInitPoolList, apeNewPool, inside]
    rfl
  · simp [contents, apeInitPoolList, apeNewPool, inside]
    rfl

theorem stocked_init {n : Nat} (positive : 0 < n) : Stocked (apeInitPoolList n) [] [] := by
  obtain ⟨n, rfl⟩ : ∃ rest, n = rest + 1 := ⟨n - 1, by omega⟩
  refine ⟨[], 0, List.range' 1 n, ?_, rfl⟩
  refine { shape := ?_, current := rfl, empty := ?_, carries := .nil }
  · have shape : Shape (apeInitPoolList (n + 1) : PoolList Packet) _ := shape_init (by omega)
    rw [List.range'_succ] at shape
    exact shape
  · intro slot _
    rw [contents_init]

theorem packets_init {n : Nat} (positive : 0 < n) : Packets (apeInitPoolList n) [] := (stocked_init positive).packets

theorem stocked_push (stocked : Stocked plist stock pending) {packet : Packet} (carries : Carries packet data suffix) :
    ∃ pushed, pushPacket plist packet = .ok pushed ∧ Stocked pushed (stock ++ [packet]) (pending ++ [suffix]) := by
  obtain ⟨filled, spare, more, slots, rfl⟩ := stocked
  let stored := plist.setContent spare packet
  have shape : Shape stored (filled ++ spare :: more) := shape_setContent slots.shape spare packet
  have held : contents stored = Function.update (contents plist) spare packet := contents_setContent plist spare packet
  have kept : ∀ slot ∈ filled, contents stored slot = contents plist slot := by
    intro slot member
    rw [held, Function.update_of_ne]
    rintro rfl
    exact slots.apart (by simp) member
  have own : contents stored spare = packet := by rw [held, Function.update_self]
  have here : Carries (contents stored spare) data suffix := own ▸ carries
  have all : (filled ++ [spare]).map (contents stored) = filled.map (contents plist) ++ [packet] := by
    rw [List.map_append, List.map_singleton, own, List.map_congr_left kept]
  rw [pushPacket, slots.current]
  cases more with
  | nil =>
    let grown := (apeGrowPool stored 8).1
    have grownShape : Shape grown ((filled ++ [spare]) ++ List.range' stored.count 8) := shape_grow shape (by omega)
    have old : ∀ slot ∈ filled ++ [spare], contents grown slot = contents stored slot := by
      intro slot member
      have below := shape.below slot member
      rw [contents_grow, if_neg (by omega)]
    have next : (grown.node spare).next = some stored.count := by
      rw [List.append_assoc] at grownShape
      exact grownShape.next
    refine ⟨{ grown with current := some stored.count }, ?_, filled ++ [spare], stored.count,
      List.range' (stored.count + 1) 7, ?_, ?_⟩
    · have last : ((plist.setContent spare packet).node spare).next = none := shape.next
      simp only [last, ite_true]
      show Except.ok { grown with current := (grown.node spare).next } = _
      rw [next]
    · refine { shape := { chain := grownShape.chain, nodup := grownShape.nodup, below := grownShape.below,
                          queue := grownShape.queue }, current := rfl, empty := ?_, carries := ?_ }
      · intro slot member
        have fresh : slot ∈ List.range' stored.count 8 := member
        rw [List.mem_range'_1] at fresh
        show (contents grown slot).data = none
        rw [contents_grow, if_pos (by omega)]
        rfl
      · apply carries_congr old
        exact List.rel_append (carries_congr kept slots.carries) (.cons ⟨data, here⟩ .nil)
    · rw [← all]
      exact List.map_congr_left old
  | cons other more =>
    refine ⟨{ stored with current := some other }, ?_, filled ++ [spare], other, more, ?_, all⟩
    · have following : ((plist.setContent spare packet).node spare).next = some other := shape.next
      simp only [following, reduceCtorEq, ite_false]
      rfl
    · have split : filled ++ spare :: other :: more = (filled ++ [spare]) ++ other :: more := by simp
      rw [split] at shape
      refine { shape := { chain := shape.chain, nodup := shape.nodup, below := shape.below, queue := shape.queue },
               current := rfl, empty := ?_, carries := ?_ }
      · intro slot member
        show (contents stored slot).data = none
        rw [held, Function.update_of_ne]
        · exact slots.empty slot (List.mem_cons_of_mem spare member)
        · rintro rfl
          exact (List.nodup_append.mp shape.nodup).2.2 _ (by simp) _ member rfl
      · exact List.rel_append (carries_congr kept slots.carries) (.cons ⟨data, here⟩ .nil)

theorem packets_push (packets : Packets plist pending) {packet : Packet} (carries : Carries packet data suffix) :
    ∃ pushed, pushPacket plist packet = .ok pushed ∧ Packets pushed (pending ++ [suffix]) := by
  obtain ⟨stock, stocked⟩ := packets.stocked
  obtain ⟨pushed, pushing, packed⟩ := stocked_push stocked carries
  exact ⟨pushed, pushing, packed.packets⟩

theorem packets_empty (packets : Packets plist []) :
    ∃ slot, plist.head = some slot ∧ (contents plist slot).data = none := by
  obtain ⟨filled, spare, more, slots⟩ := packets
  cases slots.carries
  exact ⟨spare, slots.shape.chain.1, slots.empty spare (by simp)⟩

theorem packets_head (packets : Packets plist (suffix :: pending)) :
    ∃ slot data, plist.head = some slot ∧ Carries (contents plist slot) data suffix := by
  obtain ⟨filled, spare, more, slots⟩ := packets
  rcases slots.carries with _ | ⟨⟨data, first⟩, -⟩
  exact ⟨_, data, slots.shape.chain.1, first⟩

theorem stocked_cons (packets : Packets plist (suffix :: pending)) :
    ∃ first stock, Stocked plist (first :: stock) (suffix :: pending) := by
  obtain ⟨filled, spare, more, slots⟩ := packets
  have carries := slots.carries
  rcases carries with _ | @⟨first, _, filled, _, -, -⟩
  exact ⟨_, _, first :: filled, spare, more, slots, List.map_cons⟩

theorem stocked_nil (stocked : Stocked plist [] pending) : pending = [] := by
  obtain ⟨filled, spare, more, slots, none⟩ := stocked
  obtain rfl := List.map_eq_nil_iff.mp none
  cases slots.carries
  rfl

theorem stocked_empty (stocked : Stocked plist stock []) : stock = [] := by
  obtain ⟨filled, spare, more, slots, rfl⟩ := stocked
  cases slots.carries
  rfl

theorem stocked_head {first : Packet} (stocked : Stocked plist (first :: stock) (suffix :: pending)) :
    ∃ slot data, plist.head = some slot ∧ contents plist slot = first ∧ Carries first data suffix := by
  obtain ⟨filled, spare, more, slots, listed⟩ := stocked
  rcases slots.carries with _ | ⟨⟨data, carries⟩, -⟩
  obtain ⟨rfl, -⟩ := List.cons.inj listed
  exact ⟨_, data, slots.shape.chain.1, rfl, carries⟩

theorem stocked_replace {first : Packet} (stocked : Stocked plist (first :: stock) (suffix :: pending)) {slot : Nat}
    (head : plist.head = some slot) {packet : Packet} {rest : List Byte} (carries : Carries packet data rest) :
    Stocked (plist.setContent slot packet) (packet :: stock) (rest :: pending) := by
  obtain ⟨filled, spare, more, slots, listed⟩ := stocked
  rcases slots.carries with _ | @⟨first, _, filled, _, -, others⟩
  have same : slot = first := Option.some.inj (head.symm.trans slots.shape.chain.1)
  subst same
  have held : contents (plist.setContent slot packet) = Function.update (contents plist) slot packet :=
    contents_setContent plist slot packet
  have alone : slot ∉ filled := by
    have nodup := slots.shape.nodup
    rw [List.cons_append, List.nodup_cons] at nodup
    exact fun member => nodup.1 (List.mem_append_left _ member)
  have own : contents (plist.setContent slot packet) slot = packet := by rw [held, Function.update_self]
  have kept : ∀ other ∈ filled, contents (plist.setContent slot packet) other = contents plist other := by
    intro other member
    rw [held, Function.update_of_ne]
    rintro rfl
    exact alone member
  refine ⟨slot :: filled, spare, more, ?_, ?_⟩
  · refine { shape := shape_setContent slots.shape slot packet, current := slots.current, empty := ?_, carries := ?_ }
    · intro other member
      rw [held, Function.update_of_ne]
      · exact slots.empty other member
      · rintro rfl
        exact slots.apart member (by simp)
    · exact .cons ⟨data, by rw [own]; exact carries⟩ (carries_congr kept others)
  · rw [List.map_cons, own, List.map_congr_left kept]
    exact congrArg (packet :: ·) (List.cons.inj listed).2

theorem packets_replace (packets : Packets plist (suffix :: pending)) {slot : Nat} (head : plist.head = some slot)
    {packet : Packet} {rest : List Byte} (carries : Carries packet data rest) :
    Packets (plist.setContent slot packet) (rest :: pending) := by
  obtain ⟨first, stock, stocked⟩ := stocked_cons packets
  exact (stocked_replace stocked head carries).packets

theorem stocked_pop {first : Packet} (stocked : Stocked plist (first :: stock) (suffix :: pending)) {slot : Nat}
    (head : plist.head = some slot) {packet : Packet} (released : packet.data = none) :
    ∃ moved next, apePoolHeadToQueue (plist.setContent slot packet) = .ok (moved, next) ∧ Stocked moved stock pending := by
  obtain ⟨filled, spare, more, slots, listed⟩ := stocked
  rcases slots.carries with _ | @⟨first, _, filled, _, -, others⟩
  have same : slot = first := Option.some.inj (head.symm.trans slots.shape.chain.1)
  subst same
  have held : contents (plist.setContent slot packet) = Function.update (contents plist) slot packet :=
    contents_setContent plist slot packet
  have alone : slot ∉ filled ++ spare :: more := by
    have nodup := slots.shape.nodup
    rw [List.cons_append, List.nodup_cons] at nodup
    exact nodup.1
  obtain ⟨second, rest, split⟩ : ∃ second rest, filled ++ spare :: more = second :: rest :=
    List.exists_cons_of_ne_nil (by simp)
  have shape := shape_setContent slots.shape slot packet
  rw [List.cons_append, split] at shape
  obtain ⟨moved, rotated, turned, same, current, -⟩ := headToQueue_shape shape
  rw [← split, List.append_assoc, List.cons_append] at turned
  have kept : ∀ other ∈ filled ++ spare :: more, contents moved other = contents plist other := by
    intro other member
    rw [same, held, Function.update_of_ne]
    rintro rfl
    exact alone member
  have before : ∀ other ∈ filled, contents moved other = contents plist other :=
    fun other member => kept other (List.mem_append_left _ member)
  refine ⟨moved, some second, rotated, filled, spare, more ++ [slot], ?_, ?_⟩
  · refine { shape := turned, current := current.trans slots.current, empty := ?_, carries := carries_congr before others }
    intro other member
    rw [← List.cons_append, List.mem_append, List.mem_singleton] at member
    rcases member with old | rfl
    · rw [kept other (List.mem_append_right _ old)]
      exact slots.empty other old
    · rw [same, held, Function.update_self]
      exact released
  · rw [List.map_congr_left before]
    exact (List.cons.inj listed).2

theorem packets_pop (packets : Packets plist (suffix :: pending)) {slot : Nat} (head : plist.head = some slot)
    {packet : Packet} (released : packet.data = none) :
    ∃ moved next, apePoolHeadToQueue (plist.setContent slot packet) = .ok (moved, next) ∧ Packets moved pending := by
  obtain ⟨first, stock, stocked⟩ := stocked_cons packets
  obtain ⟨moved, next, popped, left⟩ := stocked_pop stocked head released
  exact ⟨moved, next, popped, left.packets⟩

theorem gather_slots {filled more : List Nat} {spare : Nat} {start stop : Option Nat}
    (chain : Segment (nexts plist) start (filled ++ spare :: more) stop)
    (empty : (contents plist spare).data = none)
    (carries : List.Forall₂ (fun slot suffix => ∃ data, Carries (contents plist slot) data suffix) filled pending)
    (maxChunks : Nat) : gatherChunks plist maxChunks start = pending.take maxChunks := by
  induction carries generalizing start maxChunks with
  | nil =>
    rcases chain with ⟨rfl, -⟩
    have none : (plist.node spare).content.data = none := empty
    cases maxChunks with
    | zero => rfl
    | succ maxChunks => simp [gatherChunks, none]
  | @cons slot suffix filled pending first others ih =>
    rcases chain with ⟨rfl, chain⟩
    rcases first with ⟨data, carries⟩
    cases maxChunks with
    | zero => rfl
    | succ maxChunks =>
      have stored : (plist.node slot).content.data = some data := carries.stored
      have rest : (plist.node slot).content.rest data = suffix := carries.rest
      have later := ih chain maxChunks
      simp only [gatherChunks, stored, rest, List.take_succ_cons]
      rw [← later]
      rfl

/-- `writev` is offered the first byte sequences, as many as it takes at once. -/
theorem gather_packets (packets : Packets plist pending) (maxChunks : Nat) :
    gatherChunks plist maxChunks plist.head = pending.take maxChunks := by
  obtain ⟨filled, spare, more, slots⟩ := packets
  exact gather_slots slots.shape.chain (slots.empty spare (by simp)) slots.carries maxChunks

end Slots

/-- The bytes in a packet list from a slot up to the current one, each packet from its offset. -/
def heldFrom (plist : PoolList Packet) : Nat → Option Nat → List Byte
  | 0, _ | _, none => []
  | slots + 1, some slot =>
    if some slot = plist.current then []
    else
      let packet := (plist.node slot).content
      packet.rest (packet.data.getD []) ++ heldFrom plist slots (plist.node slot).next

def heldBytes (plist : PoolList Packet) : List Byte := heldFrom plist plist.count plist.head

section Held

variable {plist : PoolList Packet} {pending : List (List Byte)}

theorem held_slots {filled more : List Nat} {spare slots : Nat} {start stop : Option Nat}
    (chain : Segment (nexts plist) start (filled ++ spare :: more) stop) (current : plist.current = some spare)
    (apart : spare ∉ filled)
    (carries : List.Forall₂ (fun slot suffix => ∃ data, Carries (contents plist slot) data suffix) filled pending)
    (enough : filled.length ≤ slots) : heldFrom plist slots start = pending.flatten := by
  induction carries generalizing start slots with
  | nil =>
    rcases chain with ⟨rfl, -⟩
    cases slots with
    | zero => rfl
    | succ slots => simp [heldFrom, current]
  | @cons slot suffix filled pending first others ih =>
    rcases chain with ⟨rfl, chain⟩
    rcases first with ⟨data, carries⟩
    obtain ⟨slots, rfl⟩ : ∃ rest, slots = rest + 1 := ⟨slots - 1, by simp at enough; omega⟩
    have stored : (plist.node slot).content.data = some data := carries.stored
    have rest : (plist.node slot).content.rest data = suffix := carries.rest
    have other : ¬ some slot = plist.current := by
      rw [current]
      rintro ⟨⟩
      exact apart (by simp)
    have later := @ih slots _ chain (fun member => apart (List.mem_cons_of_mem _ member)) (by simpa using enough)
    simp only [heldFrom, if_neg other, stored, Option.getD_some, rest, List.flatten_cons]
    rw [← later]
    rfl

theorem held_packets (packets : Packets plist pending) : heldBytes plist = pending.flatten := by
  obtain ⟨filled, spare, more, slots⟩ := packets
  apply held_slots slots.shape.chain slots.current (slots.apart (by simp)) slots.carries
  have nodup := (List.nodup_append.mp slots.shape.nodup).1
  have below : filled ⊆ List.range plist.count := by
    intro slot member
    rw [List.mem_range]
    exact slots.shape.below slot (List.mem_append_left _ member)
  simpa using (List.subperm_of_subset nodup below).length_le

end Held

end ZapeProof
