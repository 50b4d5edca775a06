import Zape.Buffer.Gzip
import Zape.Machine.Runs

/-! The input that `deflate` left in a buffer that compresses. -/
namespace ZapeProof

open Machine ZapeModel

/-- The bytes that wait at `next_in`, if all of them lie within the memory of `buf`. -/
def pendingIn (b : GzipBuffer) : Option (List (Option Byte)) :=
  if b.availIn = 0#32 then some []
  else
    match b.nextIn, b.buf with
    | .block address offset, some block =>
      if address = block.address ∧ block.size = b.bufSize ∧ offset + b.availIn.toNat ≤ b.bufSize.toNat then
        some (readCells block.cells offset b.availIn.toNat)
      else none
    | _, _ => none

/-- What was consumed and what is pending is together all that was appended. -/
def Tracks (run : GzipRun) : Prop :=
  ∃ pending, pendingIn run.buffer = some pending ∧ run.buffer.total ++ pending = run.appended.map some

section Grow

variable {b : GzipBuffer} {inputSize : SizeT} {moved : Bool}

def BufferBacked (b : GzipBuffer) : Prop :=
  match b.buf with
  | none => b.bufSize = 0#64
  | some block => block.size = b.bufSize

theorem doubled_bounds {availIn bufsize : SizeT} {turns : Nat} (inside : availIn.toNat ≤ bufsize.toNat)
    (small : bufsize.toNat ≤ 2 ^ 35) (needed : availIn.toNat + inputSize.toNat ≤ 2 ^ 34)
    (enough : availIn.toNat + inputSize.toNat ≤ bufsize.toNat * 2 ^ turns) :
    availIn.toNat + inputSize.toNat ≤ (GzipBuffer.doubled availIn inputSize turns bufsize).toNat ∧
      bufsize.toNat ≤ (GzipBuffer.doubled availIn inputSize turns bufsize).toNat ∧
      (GzipBuffer.doubled availIn inputSize turns bufsize).toNat ≤ 2 ^ 35 := by
  induction turns generalizing bufsize with
  | zero =>
    rw [Nat.pow_zero, Nat.mul_one] at enough
    exact ⟨enough, Nat.le_refl _, small⟩
  | succ turns ih =>
    have left : (bufsize - availIn).toNat = bufsize.toNat - availIn.toNat := BitVec.toNat_sub_of_le inside
    rw [GzipBuffer.doubled]
    split
    · rename_i short
      rw [BitVec.ult_iff_lt, BitVec.lt_def, left] at short
      have twice : (bufsize <<< 1).toNat = bufsize.toNat * 2 := by
        rw [BitVec.toNat_shiftLeft, Nat.shiftLeft_eq, Nat.mod_eq_of_lt]
        omega
      obtain ⟨holds, grown, bounded⟩ := @ih (bufsize <<< 1) (by omega) (by omega)
        (by rw [twice, Nat.mul_assoc, Nat.mul_comm 2, ← Nat.pow_succ]; exact enough)
      exact ⟨holds, by omega, bounded⟩
    · rename_i room
      rw [BitVec.ult_iff_lt, BitVec.lt_def, left] at room
      exact ⟨by omega, Nat.le_refl _, small⟩

theorem fits_iff {bufSize availIn : SizeT} (small : bufSize.toNat ≤ 2 ^ 35)
    (needed : availIn.toNat + inputSize.toNat ≤ 2 ^ 34) :
    inputSize.sle (bufSize - availIn) = true ↔ availIn.toNat + inputSize.toNat ≤ bufSize.toNat := by
  have remaining : (bufSize - availIn).toInt = (bufSize.toNat : Int) - availIn.toNat := by
    rw [BitVec.toInt_sub, BitVec.toInt_eq_toNat_of_lt (by omega), BitVec.toInt_eq_toNat_of_lt (by omega)]
    apply Int.bmod_eq_of_le
    · omega
    · omega
  rw [BitVec.sle_iff_toInt_le, remaining, BitVec.toInt_eq_toNat_of_lt (by omega)]
  omega

theorem realloc_spec (b : GzipBuffer) (bufsize : SizeT) (moved : Bool) :
    let next := b.realloc bufsize moved
    next.nextIn = b.nextIn ∧ next.availIn = b.availIn ∧ next.total = b.total ∧ next.bufSize = b.bufSize ∧
      ∃ block, next.buf = some block ∧ block.size = bufsize ∧ ∀ old, b.buf = some old →
        (moved = false → block.address = old.address) ∧ ∀ index < old.size.toNat, block.cells index = old.cells index := by
  cases stored : b.buf with
  | none =>
    simp only [GzipBuffer.realloc, stored]
    exact ⟨trivial, trivial, trivial, trivial, _, rfl, rfl, by simp⟩
  | some block =>
    cases moved with
    | false =>
      simp only [GzipBuffer.realloc, stored]
      refine ⟨rfl, rfl, rfl, rfl, _, rfl, rfl, fun old same => ?_⟩
      cases same
      exact ⟨fun _ => rfl, fun index below => if_pos below⟩
    | true =>
      simp only [GzipBuffer.realloc, stored]
      refine ⟨rfl, rfl, rfl, rfl, _, rfl, rfl, fun old same => ?_⟩
      cases same
      exact ⟨by simp, fun index below => if_pos below⟩

/-- What `zbuffer_prepapre_buf` makes of a buffer with pending input. -/
structure Prepapred (b next : GzipBuffer) (needed : Nat) (stays : Prop) : Prop where
  nextIn : next.nextIn = b.nextIn
  availIn : next.availIn = b.availIn
  total : next.total = b.total
  room : needed ≤ next.bufSize.toNat
  bounded : next.bufSize.toNat ≤ 2 ^ 35
  holds : ∃ block, next.buf = some block ∧ block.size = next.bufSize ∧ ∀ old, b.buf = some old →
    (stays → block.address = old.address) ∧ ∀ index < b.bufSize.toNat, block.cells index = old.cells index

theorem prepapre_spec (backed : BufferBacked b) (pending : b.availIn ≠ 0#32)
    (inside : b.availIn.toNat ≤ max 1024 b.bufSize.toNat) (small : b.bufSize.toNat ≤ 2 ^ 35)
    (needed : b.availIn.toNat + inputSize.toNat ≤ 2 ^ 34) :
    Prepapred b (b.zbufferPrepapreBuf inputSize moved) (b.availIn.toNat + inputSize.toNat)
      (b.availIn.toNat + inputSize.toNat ≤ b.bufSize.toNat ∨ moved = false) := by
  have wide : (b.availIn.setWidth 64).toNat = b.availIn.toNat := by
    rw [BitVec.toNat_setWidth, Nat.mod_eq_of_lt]
    have bound := b.availIn.isLt
    omega
  have fits := @fits_iff inputSize b.bufSize (b.availIn.setWidth 64) small (by rw [wide]; exact needed)
  rw [wide] at fits
  by_cases room : b.availIn.toNat + inputSize.toNat ≤ b.bufSize.toNat
  · rw [GzipBuffer.zbufferPrepapreBuf, if_neg pending, if_pos (fits.mpr room)]
    refine { nextIn := rfl, availIn := rfl, total := rfl, room, bounded := small, holds := ?_ }
    cases stored : b.buf with
    | none =>
      simp only [BufferBacked, stored] at backed
      have some_pending : b.availIn.toNat ≠ 0 := fun zero => pending (BitVec.eq_of_toNat_eq zero)
      rw [backed] at room
      exact absurd room (by simp only [BitVec.toNat_ofNat]; omega)
    | some block =>
      simp only [BufferBacked, stored] at backed
      refine ⟨block, rfl, backed, fun old same => ?_⟩
      cases same
      exact ⟨fun _ => rfl, fun _ _ => rfl⟩
  · rw [GzipBuffer.zbufferPrepapreBuf, if_neg pending, if_neg fun fit => room (fits.mp fit)]
    dsimp only
    let start := if (1024#64).ult b.bufSize then b.bufSize else 1024#64
    have least : start.toNat = max 1024 b.bufSize.toNat := by
      simp only [start, BitVec.ult_iff_lt, BitVec.lt_def, BitVec.toNat_ofNat]
      split
      · omega
      · simp only [BitVec.toNat_ofNat]
        omega
    obtain ⟨holds, -, bounded⟩ := @doubled_bounds inputSize (b.availIn.setWidth 64) start 64
      (by rw [wide, least]; exact inside)
      (by omega) (by rw [wide]; exact needed) (by rw [wide]; omega)
    rw [wide] at holds
    have grown := @realloc_spec { b with bufSize := GzipBuffer.doubled (b.availIn.setWidth 64) inputSize 64 start }
      (GzipBuffer.doubled (b.availIn.setWidth 64) inputSize 64 start) moved
    obtain ⟨nextIn, availIn, total, bufSize, block, here, size, kept⟩ := grown
    refine { nextIn, availIn, total, room := bufSize ▸ holds, bounded := bufSize ▸ bounded, holds := ⟨block, here, ?_, ?_⟩ }
    · rw [size]
      exact bufSize.symm
    · intro old stored
      have backed : old.size = b.bufSize := by simpa only [BufferBacked, stored] using backed
      obtain ⟨address, cells⟩ := kept old stored
      refine ⟨fun stays => address (stays.resolve_left room), fun index below => cells index (by rw [backed]; exact below)⟩

end Grow

/-- A buffer that has consumed all that was appended but these bytes, which are kept at the start of `buf`. -/
structure HoldsPending (b : GzipBuffer) (appended pending : List Byte) : Prop where
  count : b.availIn.toNat = pending.length
  whole : b.total ++ pending.map some = appended.map some
  backed : BufferBacked b
  small : b.bufSize.toNat ≤ 2 ^ 35
  empty : pending = [] → b.nextIn = .null
  stored : pending ≠ [] → pending.length ≤ b.bufSize.toNat ∧ ∃ block, b.buf = some block ∧
    b.nextIn = .block block.address 0 ∧ readCells block.cells 0 pending.length = pending.map some

section Append

variable {b : GzipBuffer} {appended pending : List Byte} {call : GzipAppend} {deflateBound : SizeT → SizeT}

theorem holding_tracks (holding : HoldsPending b appended pending) : Tracks { buffer := b, appended } := by
  refine ⟨pending.map some, ?_, holding.whole⟩
  by_cases none : pending = []
  · have idle : b.availIn = 0#32 := BitVec.eq_of_toNat_eq (by rw [holding.count, none]; rfl)
    rw [pendingIn, if_pos idle, none]
    rfl
  · have busy : b.availIn ≠ 0#32 := by
      intro zero
      have length := holding.count
      rw [zero] at length
      exact none (List.eq_nil_of_length_eq_zero length.symm)
    obtain ⟨inside, block, here, nextIn, stored⟩ := holding.stored none
    have backed : block.size = b.bufSize := by simpa only [BufferBacked, here] using holding.backed
    rw [pendingIn, if_neg busy, nextIn, here]
    simp only [holding.count]
    rw [if_pos ⟨trivial, backed, by omega⟩, stored]

theorem bufferPrepare_spec (b : GzipBuffer) (size : SizeT) :
    ∃ size' used availOut, b.bufferPrepare size = { b with size := size', used, availOut } := by
  rw [GzipBuffer.bufferPrepare]
  split
  · exact ⟨_, _, _, rfl⟩
  · split
    · exact ⟨_, _, _, rfl⟩
    · exact ⟨_, _, _, rfl⟩

/-- The rest of the input is kept, if what is moved to the start of `buf` leaves it there. -/
theorem keepRest_spec {data rest : List Byte} {count : SizeT} {moved : Bool} (backed : BufferBacked b) (some_rest : rest ≠ [])
    (length : b.availIn.toNat = rest.length) (whole : b.total ++ rest.map some = appended.map some)
    (inside : rest.length ≤ max 1024 b.bufSize.toNat) (small : b.bufSize.toNat ≤ 2 ^ 35)
    (reads : ∀ next block, Prepapred b next (rest.length + rest.length)
        (rest.length + rest.length ≤ b.bufSize.toNat ∨ moved = false) → next.buf = some block →
      block.size = next.bufSize → (∀ old, b.buf = some old →
        (rest.length + rest.length ≤ b.bufSize.toNat ∨ moved = false → block.address = old.address) ∧
          ∀ index < b.bufSize.toNat, block.cells index = old.cells index) →
      ∃ bytes, next.readIn data count.toNat = .ok bytes ∧ bytes.length ≤ rest.length ∧
        readCells (writeCells block.cells 0 bytes) 0 rest.length = rest.map some) :
    ∃ next, b.keepRest data count moved = .ok next ∧ HoldsPending next appended rest := by
  have pending : b.availIn ≠ 0#32 := by
    intro zero
    rw [zero] at length
    exact some_rest (List.eq_nil_of_length_eq_zero length.symm)
  have bound := b.availIn.isLt
  have wide : (b.availIn.setWidth 64).toNat = rest.length := by
    rw [BitVec.toNat_setWidth, Nat.mod_eq_of_lt (by omega), length]
  have prepared := @prepapre_spec b (b.availIn.setWidth 64) moved backed pending (by omega) small (by omega)
  rw [wide, length] at prepared
  obtain ⟨block, here, size, kept⟩ := prepared.holds
  obtain ⟨bytes, read, short, left⟩ := reads _ block prepared here size kept
  let settled := b.zbufferPrepapreBuf (b.availIn.setWidth 64) moved
  have room : rest.length + rest.length ≤ settled.bufSize.toNat := prepared.room
  have written : settled.writeBuf 0 bytes =
      .ok { settled with buf := some { block with cells := writeCells block.cells 0 bytes } } := by
    simp only [GzipBuffer.writeBuf, show settled.buf = some block from here]
    rw [if_pos (by rw [size]; show 0 + bytes.length ≤ settled.bufSize.toNat; omega)]
  let moved_in : Block := { block with cells := writeCells block.cells 0 bytes }
  refine ⟨{ settled with buf := some moved_in, nextIn := .block block.address 0 }, ?_, ?_⟩
  · simp only [GzipBuffer.keepRest, read, Except.bind]
    rw [show GzipBuffer.writeBuf _ 0 bytes = _ from written]
    rfl
  · have fits : rest.length ≤ settled.bufSize.toNat := by omega
    refine {
      count := ?_
      whole := ?_
      backed := size
      small := prepared.bounded
      empty := fun empty => absurd empty some_rest
      stored := fun _ => ⟨fits, moved_in, rfl, rfl, left⟩ }
    · rw [← length]
      exact congrArg BitVec.toNat prepared.availIn
    · rw [← whole]
      exact congrArg (· ++ rest.map some) prepared.total

theorem size_toNat (data : DataObject) : (BitVec.ofNat 64 data.bytes.length).toNat = data.bytes.length := by
  have bound := data.object
  rw [BitVec.toNat_ofNat, Nat.mod_eq_of_lt (by omega)]

theorem size_zero (data : DataObject) : BitVec.ofNat 64 data.bytes.length = 0#64 ↔ data.bytes = [] := by
  constructor
  · intro zero
    have length := size_toNat data
    rw [zero] at length
    exact List.eq_nil_of_length_eq_zero length.symm
  · intro empty
    rw [empty]
    rfl

/-- `avail_in` once the new data was added. -/
def offered (b : GzipBuffer) (data : DataObject) : BitVec 32 :=
  (b.availIn.setWidth 64 + BitVec.ofNat 64 data.bytes.length).setWidth 32

theorem offered_toNat {data : DataObject} (short : b.availIn.toNat + data.bytes.length < 2 ^ 32) :
    (offered b data).toNat = b.availIn.toNat + data.bytes.length := by
  rw [offered, BitVec.toNat_setWidth, BitVec.toNat_add, BitVec.toNat_setWidth, size_toNat]
  omega

theorem append_from {prepared taken deflated : GzipBuffer} (some_data : call.data.bytes ≠ []) (returns : call.result = .ok)
    (prepare : b.bufferPrepare (deflateBound (b.availIn.setWidth 64 + BitVec.ofNat 64 call.data.bytes.length)) = prepared)
    (take : (prepared.zbufferPrepapreBuf (BitVec.ofNat 64 call.data.bytes.length) call.moved).takeData call.data.bytes =
      .ok taken)
    (deflate : { taken with availIn := offered taken call.data }.deflate call = .ok deflated) :
    ∃ used, b.bufferAppendData deflateBound call =
      if deflated.availIn = 0#32 then .ok { deflated with used, nextIn := .null }
      else { deflated with used }.keepRest call.data.bytes (BitVec.ofNat 64 call.data.bytes.length -
        (offered taken call.data - deflated.availIn).signExtend 64) call.movedAgain := by
  have nonzero : BitVec.ofNat 64 call.data.bytes.length ≠ 0#64 := fun zero => some_data ((size_zero _).mp zero)
  refine ⟨deflated.used + (taken.availOut - deflated.availOut).setWidth 64, ?_⟩
  rw [offered] at deflate
  simp only [GzipBuffer.bufferAppendData, if_neg nonzero, prepare, take, Except.bind, deflate, offered]
  by_cases idle : deflated.availIn = 0#32
  · simp only [idle, if_true, ne_eq, not_true_eq_false, and_false, if_false]
  · simp only [idle, if_false, ne_eq, not_false_eq_true, returns, and_self, if_true]

theorem deflate_from {bytes : List (Option Byte)} {consumed : Nat} (here : consumed = min call.consumed b.availIn.toNat)
    (read : b.readIn call.data.bytes consumed = .ok bytes) :
    ∃ availOut, b.deflate call = .ok { b with
      nextIn := b.nextIn.advance consumed
      availIn := b.availIn - BitVec.ofNat 32 consumed
      availOut
      total := b.total ++ bytes } := by
  subst here
  refine ⟨b.availOut - BitVec.ofNat 32 (min call.produced b.availOut.toNat), ?_⟩
  rw [GzipBuffer.deflate, read]
  rfl

end Append

/-- What `deflate` leaves of the data that follows nothing fits into the memory that `buf` is sure to have. Behind pending
    input it consumes all or nothing, and `buf` does not move. -/
def KeepsInput (run : GzipRun) (call : GzipAppend) : Prop :=
  let given := run.buffer.availIn.toNat + call.data.bytes.length
  let consumed := min call.consumed given
  call.data.bytes = [] ∨
    given < 2 ^ 32 ∧
      if run.buffer.availIn = 0#32 then
        consumed = given ∨ given - consumed ≤ max 1024 run.buffer.bufSize.toNat ∧ consumed < 2 ^ 31
      else
        (given ≤ run.buffer.bufSize.toNat ∨ call.moved = false) ∧
          (consumed = given ∨ consumed = 0 ∧
            (given + given ≤ (run.buffer.zbufferPrepapreBuf (BitVec.ofNat 64 call.data.bytes.length) call.moved).bufSize.toNat ∨
              call.movedAgain = false))

section Step

variable {b : GzipBuffer} {appended pending : List Byte} {call : GzipAppend} {deflateBound : SizeT → SizeT}

theorem count_left {data : DataObject} {consumed : BitVec 32} {count : Nat} (counted : consumed.toNat = count)
    (inside : count ≤ data.bytes.length) (short : count < 2 ^ 31) :
    (BitVec.ofNat 64 data.bytes.length - consumed.signExtend 64).toNat = data.bytes.length - count := by
  have widened : (consumed.signExtend 64).toNat = count := by
    rw [BitVec.signExtend_eq_setWidth_of_msb_false, BitVec.toNat_setWidth, counted, Nat.mod_eq_of_lt (by omega)]
    rw [BitVec.msb_eq_false_iff_two_mul_lt, counted]
    omega
  have bound := data.object
  rw [BitVec.toNat_sub_of_le, widened, size_toNat]
  rw [BitVec.le_def, widened, size_toNat]
  exact inside

/-- Nothing is pending: `deflate` reads the data where it is. -/
theorem append_first (holding : HoldsPending b appended []) (some_data : call.data.bytes ≠ []) (returns : call.result = .ok)
    (short : call.data.bytes.length < 2 ^ 32) {consumed : Nat} (here : consumed = min call.consumed call.data.bytes.length)
    (left : consumed = call.data.bytes.length ∨
      call.data.bytes.length - consumed ≤ max 1024 b.bufSize.toNat ∧ consumed < 2 ^ 31) :
    ∃ next, b.bufferAppendData deflateBound call = .ok next ∧
      HoldsPending next (appended ++ call.data.bytes) (call.data.bytes.drop consumed) := by
  have idle : b.availIn = 0#32 := BitVec.eq_of_toNat_eq holding.count
  have whole : b.total = appended.map some := by
    have same := holding.whole
    rwa [List.map_nil, List.append_nil] at same
  obtain ⟨size, used, availOut, prepare⟩ := bufferPrepare_spec b
    (deflateBound (b.availIn.setWidth 64 + BitVec.ofNat 64 call.data.bytes.length))
  let prepared : GzipBuffer := { b with size, used, availOut }
  let taken : GzipBuffer := { prepared with nextIn := .data 0 }
  have take : (prepared.zbufferPrepapreBuf (BitVec.ofNat 64 call.data.bytes.length) call.moved).takeData call.data.bytes =
      .ok taken := by
    rw [GzipBuffer.zbufferPrepapreBuf, if_pos (show prepared.availIn = 0#32 from idle), GzipBuffer.takeData]
    exact if_neg fun other => other (holding.empty rfl)
  have all : (offered taken call.data).toNat = call.data.bytes.length := by
    rw [offered_toNat (by rw [show taken.availIn = 0#32 from idle]; simpa using short), show taken.availIn = 0#32 from idle]
    exact Nat.zero_add _
  have inside : consumed ≤ call.data.bytes.length := by omega
  have read : GzipBuffer.readIn { taken with availIn := offered taken call.data } call.data.bytes consumed =
      .ok ((call.data.bytes.take consumed).map some) := by
    rw [GzipBuffer.readIn]
    split
    · rename_i zero
      rw [zero, List.take_zero, List.map_nil]
    · simp only [taken]
      rw [if_pos (by omega), readCells_list (by omega), List.drop_zero]
  obtain ⟨availOut', deflate⟩ := @deflate_from { taken with availIn := offered taken call.data } call _ consumed
    (by rw [all]; exact here) read
  obtain ⟨used', result⟩ := append_from some_data returns prepare take deflate
  have less : (offered taken call.data - BitVec.ofNat 32 consumed).toNat = call.data.bytes.length - consumed := by
    have bits : (BitVec.ofNat 32 consumed).toNat = consumed := by rw [BitVec.toNat_ofNat, Nat.mod_eq_of_lt (by omega)]
    rw [BitVec.toNat_sub_of_le, all, bits]
    rw [BitVec.le_def, all, bits]
    exact inside
  have total : b.total ++ (call.data.bytes.take consumed).map some ++ (call.data.bytes.drop consumed).map some =
      (appended ++ call.data.bytes).map some := by
    rw [whole, List.append_assoc, ← List.map_append, List.take_append_drop, List.map_append]
  rw [result]
  by_cases done : consumed = call.data.bytes.length
  · have none : offered taken call.data - BitVec.ofNat 32 consumed = 0#32 := BitVec.eq_of_toNat_eq (by rw [less, done]; simp)
    have empty : call.data.bytes.drop consumed = [] := List.drop_eq_nil_of_le (Nat.le_of_eq done.symm)
    rw [if_pos none]
    refine ⟨_, rfl, ?_⟩
    rw [empty] at total ⊢
    rw [List.map_nil] at total
    exact {
      count := congrArg BitVec.toNat none
      whole := total
      backed := holding.backed
      small := holding.small
      empty := fun _ => rfl
      stored := fun other => absurd rfl other }
  · obtain ⟨bounded, positive⟩ := left.resolve_left done
    have rest : call.data.bytes.drop consumed ≠ [] := fun empty => by
      have none := List.drop_eq_nil_iff.mp empty
      omega
    have remain : (offered taken call.data - (offered taken call.data - BitVec.ofNat 32 consumed)).toNat = consumed := by
      rw [BitVec.toNat_sub_of_le, all, less]
      · omega
      · rw [BitVec.le_def, all, less]
        omega
    rw [if_neg fun zero => by
      have none := congrArg BitVec.toNat zero
      rw [less, BitVec.toNat_ofNat] at none
      omega]
    refine keepRest_spec holding.backed rest ?_ ?_ ?_ ?_ ?_
    · exact less.trans List.length_drop.symm
    · exact total
    · rw [List.length_drop]
      exact bounded
    · exact holding.small
    · intro next block after here size kept
      have moves := count_left remain inside positive
      refine ⟨(call.data.bytes.drop consumed).map some, ?_, by rw [List.length_map], ?_⟩
      · rw [moves, GzipBuffer.readIn, if_neg (by omega), after.nextIn]
        simp only [InPointer.advance, taken]
        rw [if_pos (by omega), readCells_list (by omega), Nat.zero_add, List.take_of_length_le (by rw [List.length_drop])]
      · have written := @readCells_written _ block.cells 0 ((call.data.bytes.drop consumed).map some)
        rwa [List.length_map] at written

/-- The sizes of the output do not matter to how `buf` is grown. -/
theorem prepapre_bufSize (size used : SizeT) (availOut : BitVec 32) (inputSize : SizeT) (moved : Bool) :
    (GzipBuffer.zbufferPrepapreBuf { b with size, used, availOut } inputSize moved).bufSize =
      (b.zbufferPrepapreBuf inputSize moved).bufSize := by
  have resized : ∀ (c : GzipBuffer) (bufsize : SizeT), (c.realloc bufsize moved).bufSize = c.bufSize :=
    fun c bufsize => (realloc_spec c bufsize moved).2.2.2.1
  rw [GzipBuffer.zbufferPrepapreBuf, GzipBuffer.zbufferPrepapreBuf]
  split
  · rfl
  · split
    · rfl
    · dsimp only
      rw [resized, resized]

/-- Something is pending, and the data is put behind it. -/
theorem append_more (holding : HoldsPending b appended pending) (some_pending : pending ≠ [])
    (some_data : call.data.bytes ≠ [])
    (returns : call.result = .ok) {given consumed : Nat} (sum : given = pending.length + call.data.bytes.length)
    (short : given < 2 ^ 32) (here : consumed = min call.consumed given)
    (stays : given ≤ b.bufSize.toNat ∨ call.moved = false)
    (left : consumed = given ∨ consumed = 0 ∧
      (given + given ≤ (b.zbufferPrepapreBuf (BitVec.ofNat 64 call.data.bytes.length) call.moved).bufSize.toNat ∨
        call.movedAgain = false)) :
    ∃ next, b.bufferAppendData deflateBound call = .ok next ∧
      HoldsPending next (appended ++ call.data.bytes) ((pending ++ call.data.bytes).drop consumed) := by
  have length : 0 < pending.length := List.length_pos_of_ne_nil some_pending
  have busy : b.availIn ≠ 0#32 := fun zero => by
    have none := congrArg BitVec.toNat zero
    rw [holding.count, BitVec.toNat_ofNat] at none
    omega
  obtain ⟨fits, old, stored, nextIn, cells⟩ := holding.stored some_pending
  have backed : old.size = b.bufSize := by simpa only [BufferBacked, stored] using holding.backed
  obtain ⟨size, used, availOut, prepare⟩ := bufferPrepare_spec b
    (deflateBound (b.availIn.setWidth 64 + BitVec.ofNat 64 call.data.bytes.length))
  let prepared : GzipBuffer := { b with size, used, availOut }
  have grown := @prepapre_spec prepared (BitVec.ofNat 64 call.data.bytes.length) call.moved holding.backed busy
    (by show b.availIn.toNat ≤ max 1024 b.bufSize.toNat; rw [holding.count]; omega) holding.small
    (by show b.availIn.toNat + _ ≤ _; rw [holding.count, size_toNat]; omega)
  rw [show prepared.availIn.toNat + _ = given by rw [sum, ← holding.count, size_toNat]] at grown
  obtain ⟨block, there, sized, kept⟩ := grown.holds
  obtain ⟨address, same⟩ := kept old stored
  let after := prepared.zbufferPrepapreBuf (BitVec.ofNat 64 call.data.bytes.length) call.moved
  have room : given ≤ block.size.toNat := by rw [sized]; exact grown.room
  let filled : Block := { block with cells := writeCells block.cells pending.length (call.data.bytes.map some) }
  let taken : GzipBuffer := { after with buf := some filled }
  have nextIn' : taken.nextIn = .block block.address 0 := by
    rw [address stays]
    exact grown.nextIn.trans nextIn
  have availIn' : taken.availIn = b.availIn := grown.availIn
  have take : after.takeData call.data.bytes = .ok taken := by
    rw [GzipBuffer.takeData, if_pos (by rw [show after.nextIn = _ from nextIn']; simp), GzipBuffer.writeBuf, there]
    simp only [show after.availIn.toNat = pending.length by rw [← holding.count]; exact congrArg _ availIn', List.length_map]
    rw [if_pos (by omega)]
  have all : (offered taken call.data).toNat = given := by
    rw [offered_toNat (by rw [availIn', holding.count]; omega), availIn', holding.count, sum]
  have content : readCells filled.cells 0 given = (pending ++ call.data.bytes).map some := by
    have front : readCells filled.cells 0 pending.length = pending.map some := by
      rw [readCells_before (by omega), ← cells]
      apply readCells_congr
      intro index _ below
      exact same index (by show index < b.bufSize.toNat; omega)
    have back := @readCells_written _ block.cells pending.length (call.data.bytes.map some)
    rw [List.length_map] at back
    rw [sum, readCells_add, front, Nat.zero_add, back, List.map_append]
  have total : b.total ++ (pending ++ call.data.bytes).map some = (appended ++ call.data.bytes).map some := by
    rw [List.map_append, ← List.append_assoc, holding.whole, List.map_append]
  have length' : (pending ++ call.data.bytes).length = given := by rw [List.length_append, sum]
  rcases left with rfl | ⟨rfl, stays'⟩
  · have read : GzipBuffer.readIn { taken with availIn := offered taken call.data } call.data.bytes consumed =
        .ok ((pending ++ call.data.bytes).map some) := by
      rw [GzipBuffer.readIn, if_neg (by omega), nextIn']
      simp only [taken]
      rw [if_pos ⟨rfl, by show 0 + consumed ≤ block.size.toNat; omega⟩, content]
    obtain ⟨availOut', deflate⟩ := @deflate_from { taken with availIn := offered taken call.data } call _ consumed
      (by rw [all]; exact here) read
    obtain ⟨used', result⟩ := append_from some_data returns prepare take deflate
    have none : offered taken call.data - BitVec.ofNat 32 consumed = 0#32 := by
      rw [← all, BitVec.ofNat_toNat, BitVec.setWidth_eq, BitVec.sub_self]
    have empty : (pending ++ call.data.bytes).drop consumed = [] := List.drop_eq_nil_of_le (Nat.le_of_eq length')
    rw [result, if_pos none, empty]
    refine ⟨_, rfl, {
      count := congrArg BitVec.toNat none
      whole := ?_
      backed := sized
      small := grown.bounded
      empty := fun _ => rfl
      stored := fun other => absurd rfl other }⟩
    rw [List.map_nil, List.append_nil, ← total]
    exact congrArg (· ++ (pending ++ call.data.bytes).map some) grown.total
  · have read : GzipBuffer.readIn { taken with availIn := offered taken call.data } call.data.bytes 0 = .ok [] := if_pos rfl
    obtain ⟨availOut', deflate⟩ := @deflate_from { taken with availIn := offered taken call.data } call _ 0
      (by rw [all]; exact here) read
    obtain ⟨used', result⟩ := append_from some_data returns prepare take deflate
    have less : offered taken call.data - BitVec.ofNat 32 0 = offered taken call.data := BitVec.sub_zero _
    rw [result, if_neg fun zero => by
      have none := congrArg BitVec.toNat (less.symm.trans zero)
      rw [all, BitVec.toNat_ofNat] at none
      omega]
    rw [List.drop_zero]
    refine keepRest_spec sized ?_ ?_ ?_ ?_ grown.bounded ?_
    · exact List.append_ne_nil_of_left_ne_nil some_pending _
    · exact (congrArg BitVec.toNat less).trans (all.trans length'.symm)
    · rw [← total, List.append_nil]
      exact congrArg (· ++ (pending ++ call.data.bytes).map some) grown.total
    · rw [length']
      have bound : given ≤ after.bufSize.toNat := grown.room
      show given ≤ max 1024 after.bufSize.toNat
      omega
    · intro next block' again there' sized' kept'
      rw [length'] at again kept' ⊢
      have moves := @count_left call.data (offered taken call.data - (offered taken call.data - BitVec.ofNat 32 0)) 0
        (by rw [less, BitVec.sub_self]; rfl) (Nat.zero_le _) (by omega)
      obtain ⟨address', same'⟩ := kept' filled rfl
      have unmoved : block'.address = block.address := by
        apply address'
        rwa [← prepapre_bufSize size used availOut] at stays'
      have space : given + given ≤ block'.size.toNat := by rw [sized']; exact again.room
      refine ⟨readCells block'.cells 0 call.data.bytes.length, ?_, by rw [readCells_length]; omega, ?_⟩
      · rw [moves, Nat.sub_zero, GzipBuffer.readIn,
          if_neg fun zero => some_data (List.eq_nil_of_length_eq_zero zero), again.nextIn, there']
        simp only [InPointer.advance, nextIn']
        rw [if_pos ⟨unmoved.symm, by omega⟩]
      · rw [writeCells_read, ← content]
        apply readCells_congr
        intro index _ below
        apply same'
        have bound : given ≤ after.bufSize.toNat := grown.room
        show index < after.bufSize.toNat
        omega

end Step

theorem keepsInput_keeps {run : GzipRun} {pending : List Byte} {call : GzipAppend} {deflateBound : SizeT → SizeT}
    (holding : HoldsPending run.buffer run.appended pending) (returns : call.result = .ok) (keeps : KeepsInput run call) :
    ∃ next, run.step deflateBound call = .ok next ∧ ∃ pending, HoldsPending next.buffer next.appended pending := by
  have finish : ∀ next pending', run.buffer.bufferAppendData deflateBound call = .ok next →
      HoldsPending next (run.appended ++ call.data.bytes) pending' →
      ∃ next, run.step deflateBound call = .ok next ∧ ∃ pending, HoldsPending next.buffer next.appended pending := by
    intro next pending' done held
    exact ⟨_, congrArg (Except.map _) done, pending', held⟩
  by_cases empty : call.data.bytes = []
  · apply finish run.buffer pending
    · rw [GzipBuffer.bufferAppendData]
      exact if_pos ((size_zero _).mpr empty)
    · rwa [empty, List.append_nil]
  · obtain ⟨short, left⟩ := keeps.resolve_left empty
    have count := holding.count
    split at left
    · rename_i idle
      have none : pending = [] := by
        rw [idle] at count
        exact List.eq_nil_of_length_eq_zero count.symm
      rw [idle] at short left
      simp only [BitVec.toNat_ofNat, Nat.zero_mod, Nat.zero_add] at short left
      subst none
      obtain ⟨next, done, held⟩ := append_first holding empty returns short rfl left
      exact finish next _ done held
    · rename_i busy
      have some_pending : pending ≠ [] := by
        rintro rfl
        exact busy (BitVec.eq_of_toNat_eq count)
      obtain ⟨stays, left⟩ := left
      obtain ⟨next, done, held⟩ := append_more holding some_pending empty returns (by rw [count]) short rfl stays left
      exact finish next _ done held

instance (run : GzipRun) (call : GzipAppend) : Decidable (KeepsInput run call) :=
  inferInstanceAs (Decidable (_ ∨ _ ∧ ite _ _ _))

/-- The buffer once `buffer_set_gzip` was called. -/
def emptyGzip (size : SizeT) : GzipRun := { buffer := GzipBuffer.bufferSetGzip size }

/-- As long as every call keeps the input, what `deflate` was given and what waits for it is all that was appended. -/
theorem input_kept (deflateBound : SizeT → SizeT) (size : SizeT) (calls : List GzipAppend)
    (returns : ∀ call ∈ calls, call.result = .ok)
    (keeps : EachStep (GzipRun.step deflateBound) (emptyGzip size) calls KeepsInput) :
    (∃ last, runAll (GzipRun.step deflateBound) (emptyGzip size) calls = .ok last) ∧
      Throughout (GzipRun.step deflateBound) (emptyGzip size) calls Tracks := by
  let kept := fun run : GzipRun => ∃ pending, HoldsPending run.buffer run.appended pending
  have initial : kept (emptyGzip size) :=
    ⟨[], { count := rfl, whole := rfl, backed := rfl, small := Nat.zero_le _, empty := fun _ => rfl,
           stored := fun other => absurd rfl other }⟩
  have goes : ∀ before call after state, calls = before ++ call :: after →
      runAll (GzipRun.step deflateBound) (emptyGzip size) before = .ok state → kept state →
      ∃ next, state.step deflateBound call = .ok next ∧ kept next := by
    rintro before call after state split reached ⟨pending, holding⟩
    exact keepsInput_keeps holding (returns call (by simp [split])) (keeps before call after state split reached)
  have total := runAll_total initial goes
  constructor
  · obtain ⟨last, reached, -⟩ := total calls [] (List.append_nil _).symm
    exact ⟨last, reached⟩
  · intro before after state split reached
    obtain ⟨last, reached', pending, holding⟩ := total before after split
    rw [reached] at reached'
    cases reached'
    exact holding_tracks holding

/-- Two bytes of which `deflate` consumes so many. -/
def twoGiven (first second : Byte) (consumed : Nat) : GzipAppend where
  data := { bytes := [first, second], object := by simp }
  consumed

def twiceLeft : List GzipAppend := [twoGiven 1#8 2#8 0, twoGiven 3#8 4#8 2]

/-- The first call leaves two bytes, and the second of four bytes the last two: the first two are pending again. -/
theorem rest_not_moved :
    ∃ last, runAll (GzipRun.step id) (emptyGzip 0#64) twiceLeft = .ok last ∧ last.buffer.total = [some 1#8, some 2#8] ∧
      pendingIn last.buffer = some [some 1#8, some 2#8] ∧ ¬ Tracks last := by
  refine ⟨_, rfl, rfl, rfl, ?_⟩
  rintro ⟨pending, here, whole⟩
  cases here
  exact absurd whole (by decide)

/-- The first call leaves two bytes, and the second none. -/
def onceLeft : List GzipAppend := [twoGiven 1#8 2#8 0, twoGiven 3#8 4#8 4]

theorem onceLeft_kept :
    (∃ last, runAll (GzipRun.step id) (emptyGzip 0#64) onceLeft = .ok last) ∧
      Throughout (GzipRun.step id) (emptyGzip 0#64) onceLeft Tracks := by
  apply input_kept id 0#64 onceLeft (by decide)
  apply each_of_check
  rfl

end ZapeProof
