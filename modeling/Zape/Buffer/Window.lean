import Zape.Buffer.Doubling
import Zape.Buffer.Output

/-! What `deflate` may write of the output, over runs of `buffer_append_data`. -/
namespace ZapeProof

open Machine ZapeModel

def outputSize (size used bound : Nat) : Nat :=
  if size = 0 then bound else if (used + bound) % 2 ^ 64 ≤ size then size else (size + bound) % 2 ^ 64

/-- The new data is not put behind the pending input, since `buf` ends before that. -/
def OutsideBuf (b : GzipBuffer) (more : Nat) : Prop :=
  b.availIn ≠ 0#32 ∧ (max 1024 b.bufSize.toNat < b.availIn.toNat ∨ 2 ^ 63 < b.availIn.toNat + more)

/-- The input needs no memory that `buf` does not have. -/
def InputFits (b : GzipBuffer) (more : Nat) : Prop := b.availIn = 0#32 ∨ b.availIn.toNat + more ≤ b.bufSize.toNat

/-- What a buffer has between two calls. -/
structure Arranged (b : OutBuffer) : Prop where
  room : b.used.toNat ≤ b.size.toNat
  block : b.size ≠ 0#64 → ∃ block, b.data = some block ∧ block.size = b.size
  null : b.nextIn = .null ↔ b.availIn = 0#32
  backed : BufferBacked b.toGzipBuffer
  power : PowerSize b.bufSize.toNat

structure Calling (bound : SizeT) (b : OutBuffer) (more : Nat) (calling : OutBuffer) : Prop where
  used : calling.used = b.used
  size : calling.size.toNat = outputSize b.size.toNat b.used.toNat bound.toNat
  pointer : ∃ block, calling.data = some block ∧ block.size = calling.size ∧
    calling.nextOut = some (block.address, calling.used)
  whole : InputFits b.toGzipBuffer more → calling.availOut = (calling.size - calling.used).setWidth 32
  grown : ¬ InputFits b.toGzipBuffer more →
    calling.availOut.toNat = (bufGrown b.bufSize.toNat b.availIn.toNat more - b.availIn.toNat) % 2 ^ 32
  nextIn : calling.nextIn ≠ .null
  backed : BufferBacked calling.toGzipBuffer
  power : PowerSize calling.bufSize.toNat

section Calling

variable {b : OutBuffer} {call : OutAppend} {deflateBound : SizeT → SizeT} {bound : SizeT} {moved : Bool}

theorem prepare_output (arranged : Arranged b) (bound : SizeT) (moved : Bool) :
    ∃ size block outBlocks, b.bufferPrepare bound moved =
        { b with size, availOut := (size - b.used).setWidth 32, data := some block, outBlocks,
                 nextOut := some (block.address, b.used) } ∧
      block.size = size ∧ size.toNat = outputSize b.size.toNat b.used.toNat bound.toNat := by
  have room := arranged.room
  unfold OutBuffer.bufferPrepare outputSize
  dsimp only
  by_cases empty : b.size = 0#64
  · rw [empty] at room
    have none : b.used = 0#64 := BitVec.eq_of_toNat_eq (Nat.le_zero.mp room)
    rw [if_pos empty, empty, if_pos (BitVec.toNat_zero ..)]
    refine ⟨bound, { address := b.outBlocks, size := bound }, b.outBlocks + 1, ?_, rfl, rfl⟩
    rw [none]
    rfl
  · have positive : b.size.toNat ≠ 0 := fun zero => empty (BitVec.eq_of_toNat_eq zero)
    obtain ⟨block, data, same⟩ := arranged.block empty
    have order : ((b.used + bound).ult b.size || b.used + bound = b.size) = true ↔
        (b.used.toNat + bound.toNat) % 2 ^ 64 ≤ b.size.toNat := by
      rw [Bool.or_eq_true, decide_eq_true_eq, BitVec.ult_iff_lt, BitVec.lt_def, ← BitVec.toNat_inj, BitVec.toNat_add]
      omega
    rw [if_neg empty, if_neg positive]
    by_cases fits : (b.used.toNat + bound.toNat) % 2 ^ 64 ≤ b.size.toNat
    · rw [if_pos (order.mpr fits), if_pos fits]
      refine ⟨b.size, block, b.outBlocks, ?_, same, rfl⟩
      unfold OutBuffer.zbufferAdjustOutbuf
      rw [data]
      rfl
    · have proper : bound ≠ 0#64 := by
        intro zero
        rw [zero, BitVec.toNat_zero] at fits
        omega
      rw [if_neg fun less => fits (order.mp less), if_neg fits, if_neg proper]
      unfold OutBuffer.reallocData
      simp only [data]
      cases moved with
      | true =>
        exact ⟨_, { address := b.outBlocks, size := b.size + bound }, b.outBlocks + 1, rfl, rfl, BitVec.toNat_add _ _⟩
      | false => exact ⟨_, { block with size := b.size + bound }, b.outBlocks, rfl, rfl, BitVec.toNat_add _ _⟩

theorem writeBuf_held {b : GzipBuffer} {block : Block} (held : b.buf = some block) (start : Nat)
    (values : List (Option Byte)) :
    b.writeBuf start values =
      if start + values.length ≤ block.size.toNat then
        .ok { b with buf := some { block with cells := writeCells block.cells start values } }
      else .error .wildPointer := by
  unfold GzipBuffer.writeBuf
  simp only [held]

/-- A buffer that has taken the new data, and the output that `deflate` is given. -/
structure Taken (b : GzipBuffer) (more : Nat) (taken : GzipBuffer) : Prop where
  size : taken.size = b.size
  used : taken.used = b.used
  availIn : taken.availIn = b.availIn
  nextIn : taken.nextIn ≠ .null
  backed : BufferBacked taken
  power : PowerSize taken.bufSize.toNat
  whole : InputFits b more → taken.availOut = b.availOut
  grown : ¬ InputFits b more →
    taken.availOut.toNat = (bufGrown b.bufSize.toNat b.availIn.toNat more - b.availIn.toNat) % 2 ^ 32

theorem backed_some {b : GzipBuffer} (backed : BufferBacked b) (positive : 0 < b.bufSize.toNat) :
    ∃ block, b.buf = some block ∧ block.size = b.bufSize := by
  unfold BufferBacked at backed
  cases stored : b.buf with
  | none =>
    simp only [stored] at backed
    rw [backed] at positive
    exact absurd positive (Nat.lt_irrefl 0)
  | some block =>
    simp only [stored] at backed
    exact ⟨block, rfl, backed⟩

section Take

variable {b : GzipBuffer} {data : DataObject} {moved : Bool}

theorem take_outside (power : PowerSize b.bufSize.toNat) (null : b.nextIn = .null ↔ b.availIn = 0#32)
    (some : data.bytes ≠ []) (outside : OutsideBuf b data.bytes.length) :
    (b.zbufferPrepapreBuf (BitVec.ofNat 64 data.bytes.length) moved).takeData data.bytes = .error .wildPointer := by
  have size := size_toNat data
  have limit := data.object
  have short := b.availIn.isLt
  have positive := List.length_pos_iff.mpr some
  obtain ⟨busy, outside⟩ := outside
  have large : ¬ (b.availIn = 0#32 ∨ b.availIn.toNat + data.bytes.length ≤ b.bufSize.toNat) := by
    intro fits
    have room := fits.resolve_left busy
    have most : b.bufSize.toNat ≤ 2 ^ 63 := by
      rcases power with zero | ⟨exponent, -, most, same⟩
      · omega
      · rw [same]
        exact Nat.pow_le_pow_right (by decide) (by omega)
    omega
  have ends := grown_outside power short limit positive outside
  rw [← size] at large limit
  rcases @prepapre_cases b _ moved power limit with ⟨fits, -⟩ | ⟨-, -, bufSize, buf, availOut, blocks, next, sized, grown, -⟩
  · exact absurd fits large
  · rw [next]
    unfold GzipBuffer.takeData
    rw [if_pos fun none => busy (null.mp none), writeBuf_held rfl, if_neg]
    rw [List.length_map, sized, grown, size]
    dsimp only
    omega

theorem take_inside (power : PowerSize b.bufSize.toNat) (backed : BufferBacked b)
    (null : b.nextIn = .null ↔ b.availIn = 0#32) (inside : ¬ OutsideBuf b data.bytes.length) :
    ∃ taken, (b.zbufferPrepapreBuf (BitVec.ofNat 64 data.bytes.length) moved).takeData data.bytes = .ok taken ∧
      Taken b data.bytes.length taken := by
  have size := size_toNat data
  have limit := data.object
  have short := b.availIn.isLt
  have limit' : (BitVec.ofNat 64 data.bytes.length).toNat < 2 ^ 63 := by
    rw [size]
    exact limit
  rcases @prepapre_cases b _ moved power limit' with
    ⟨fits, next⟩ | ⟨busy, large, bufSize, buf, availOut, blocks, next, sized, grown, out⟩
  · rw [size] at fits
    rw [next]
    unfold GzipBuffer.takeData
    by_cases idle : b.availIn = 0#32
    · rw [if_neg fun busy => busy (null.mpr idle)]
      exact ⟨_, rfl, { size := rfl, used := rfl, availIn := rfl, nextIn := InPointer.noConfusion, backed := backed,
                       power := power, whole := fun _ => rfl, grown := fun more => absurd fits more }⟩
    · have room := fits.resolve_left idle
      have positive : b.availIn.toNat ≠ 0 := fun zero => idle (BitVec.eq_of_toNat_eq zero)
      obtain ⟨block, stored, sized⟩ := backed_some backed (by omega)
      rw [if_pos fun none => idle (null.mp none), writeBuf_held stored, if_pos]
      · exact ⟨_, rfl, { size := rfl, used := rfl, availIn := rfl, nextIn := fun none => idle (null.mp none), backed := sized,
                         power := power, whole := fun _ => rfl, grown := fun more => absurd fits more }⟩
      · rw [List.length_map, sized]
        exact room
  · have holds := @grown_holds _ b.availIn.toNat data.bytes.length power
      (Nat.le_of_not_lt fun past => inside ⟨busy, .inl past⟩) (Nat.le_of_not_lt fun past => inside ⟨busy, .inr past⟩)
    have unfit : ¬ InputFits b data.bytes.length := by
      intro fits
      rw [size] at large
      have room := fits.resolve_left busy
      omega
    rw [size] at grown
    rw [next]
    unfold GzipBuffer.takeData
    rw [if_pos fun none => busy (null.mp none), writeBuf_held rfl, if_pos]
    · refine ⟨_, rfl, { size := rfl, used := rfl, availIn := rfl, nextIn := fun none => busy (null.mp none), backed := sized,
                        power := ?_, whole := fun fits => absurd fits unfit, grown := fun _ => ?_ }⟩
      · rw [grown]
        exact grown_power power short limit
      · dsimp only
        rw [out, BitVec.toNat_setWidth, BitVec.toNat_sub_of_le, wide_toNat, grown, holds.1]
        rw [BitVec.le_def, wide_toNat, grown, holds.1]
        omega
    · rw [List.length_map, sized, grown, holds.1]
      exact holds.2.1

end Take

theorem call_deflate_cases (arranged : Arranged b) (some : call.data.bytes ≠ []) :
    OutsideBuf b.toGzipBuffer call.data.bytes.length ∧ b.callDeflate deflateBound call = .error .wildPointer ∨
      ¬ OutsideBuf b.toGzipBuffer call.data.bytes.length ∧ ∃ calling, b.callDeflate deflateBound call = .ok calling ∧
        Calling (deflateBound (b.availIn.setWidth 64 + BitVec.ofNat 64 call.data.bytes.length)) b call.data.bytes.length
          calling := by
  obtain ⟨size, block, outBlocks, prepared, same, output⟩ :=
    prepare_output arranged (deflateBound (b.availIn.setWidth 64 + BitVec.ofNat 64 call.data.bytes.length)) call.dataMoved
  unfold OutBuffer.callDeflate
  dsimp only
  rw [prepared]
  dsimp only
  let found : GzipBuffer := { b.toGzipBuffer with size, availOut := (size - b.used).setWidth 32 }
  by_cases outside : OutsideBuf b.toGzipBuffer call.data.bytes.length
  · have lost := @take_outside found call.data call.moved arranged.power arranged.null some outside
    rw [show GzipBuffer.takeData _ call.data.bytes = _ from lost]
    exact .inl ⟨outside, rfl⟩
  · obtain ⟨taken, took, kept⟩ := @take_inside found call.data call.moved arranged.power arranged.backed arranged.null outside
    rw [show GzipBuffer.takeData _ call.data.bytes = _ from took]
    refine .inr ⟨outside, _, rfl, ?_⟩
    have used : taken.used = b.used := kept.used
    have sized : taken.size = size := kept.size
    refine { used, size := ?_, pointer := ⟨block, rfl, same.trans sized.symm, ?_⟩, whole := fun fits => ?_,
             grown := kept.grown, nextIn := kept.nextIn, backed := kept.backed, power := kept.power }
    · rw [← output]
      exact congrArg BitVec.toNat sized
    · rw [← used]
    · show taken.availOut = (taken.size - taken.used).setWidth 32
      rw [kept.whole fits, sized, used]

end Calling

section Running

variable {b calling next : OutBuffer} {call : OutAppend}

/-- What is left of the input stays in `buf`, and the output is not touched. -/
structure RestKept (b kept : GzipBuffer) : Prop where
  size : kept.size = b.size
  used : kept.used = b.used
  availIn : kept.availIn = b.availIn
  nextIn : kept.nextIn ≠ .null
  backed : BufferBacked kept
  power : PowerSize kept.bufSize.toNat

theorem keepRest_kept {b kept : GzipBuffer} {data : List Byte} {count : SizeT} {moved : Bool}
    (power : PowerSize b.bufSize.toNat) (backed : BufferBacked b) (returned : b.keepRest data count moved = .ok kept) :
    RestKept b kept := by
  have short := b.availIn.isLt
  have limit : (b.availIn.setWidth 64).toNat < 2 ^ 63 := by
    rw [wide_toNat]
    omega
  have prepared : let settled := b.zbufferPrepapreBuf (b.availIn.setWidth 64) moved
      settled.size = b.size ∧ settled.used = b.used ∧ settled.availIn = b.availIn ∧ BufferBacked settled ∧
        PowerSize settled.bufSize.toNat := by
    rcases @prepapre_cases b _ moved power limit with ⟨-, same⟩ | ⟨-, -, bufSize, buf, _, _, grows, sized, grown, -⟩
    · rw [same]
      exact ⟨rfl, rfl, rfl, backed, power⟩
    · rw [grows]
      refine ⟨rfl, rfl, rfl, sized, ?_⟩
      rw [grown]
      exact grown_power power short limit
  obtain ⟨size, used, availIn, backed, power⟩ := prepared
  unfold GzipBuffer.keepRest at returned
  obtain ⟨bytes, -, wrote⟩ := returned_bind returned
  obtain ⟨written, wrote, last⟩ := returned_map wrote
  cases stored : (b.zbufferPrepapreBuf (b.availIn.setWidth 64) moved).buf with
  | none =>
    unfold GzipBuffer.writeBuf at wrote
    simp only [stored] at wrote
    cases wrote
  | some block =>
    rw [writeBuf_held stored] at wrote
    split at wrote
    · cases wrote
      unfold BufferBacked at backed
      simp only [stored] at backed
      rw [← last]
      exact { size, used, availIn, nextIn := InPointer.noConfusion, backed := backed, power }
    · cases wrote

theorem deflate_fields {b deflated : GzipBuffer} {call : GzipAppend} (returned : b.deflate call = .ok deflated) :
    deflated.size = b.size ∧ deflated.used = b.used ∧ deflated.buf = b.buf ∧ deflated.bufSize = b.bufSize ∧
      (b.nextIn ≠ .null → deflated.nextIn ≠ .null) ∧ (b.availOut - deflated.availOut).toNat ≤ b.availOut.toNat := by
  obtain ⟨bytes, -, last⟩ := returned_map returned
  rw [← last]
  refine ⟨rfl, rfl, rfl, rfl, ?_, ?_⟩
  · intro proper
    dsimp only
    cases here : b.nextIn with
    | null => exact absurd here proper
    | data offset => exact InPointer.noConfusion
    | block address offset => exact InPointer.noConfusion
  · have bound := b.availOut.isLt
    dsimp only
    rw [BitVec.toNat_sub, BitVec.toNat_sub, BitVec.toNat_ofNat]
    omega

theorem run_deflate_arranged {bound : SizeT} {more : Nat} (found : Calling bound b more calling)
    (inside : calling.used.toNat + calling.availOut.toNat ≤ calling.size.toNat)
    (returned : calling.runDeflate call = .ok next) : Arranged next := by
  obtain ⟨block, data, sized, -⟩ := found.pointer
  have limit := calling.size.isLt
  unfold OutBuffer.runDeflate at returned
  obtain ⟨ran, deflated, rest⟩ := returned_bind returned
  obtain ⟨inner, deflated, last⟩ := returned_map deflated
  obtain ⟨size, used, buf, bufSize, proper, less⟩ := deflate_fields deflated
  have backed : BufferBacked inner := by
    have before := found.backed
    unfold BufferBacked at before ⊢
    rw [buf, bufSize]
    exact before
  have power : PowerSize inner.bufSize.toNat := by
    rw [bufSize]
    exact found.power
  have filled : (inner.used + (calling.availOut - inner.availOut).setWidth 64).toNat ≤ inner.size.toNat := by
    rw [BitVec.toNat_add, wide_toNat, used, size]
    omega
  rw [← last] at rest
  dsimp only at rest
  by_cases idle : inner.availIn = 0#32
  · simp only [if_pos idle] at rest
    rw [if_neg fun more => more.2 idle] at rest
    cases rest
    exact { room := filled, block := fun _ => ⟨block, data, sized.trans size.symm⟩, null := ⟨fun _ => idle, fun _ => rfl⟩,
            backed, power }
  · simp only [if_neg idle] at rest
    split at rest
    · obtain ⟨kept, keeps, last'⟩ := returned_map rest
      have holds := @keepRest_kept { inner with used := inner.used + (calling.availOut - inner.availOut).setWidth 64 } kept
        _ _ _ power backed keeps
      rw [← last']
      refine { room := ?_, block := fun _ => ⟨block, data, ?_⟩,
               null := ⟨fun none => absurd none holds.nextIn, fun zero => ?_⟩, backed := holds.backed, power := holds.power }
      · show kept.used.toNat ≤ kept.size.toNat
        rw [holds.used, holds.size]
        exact filled
      · exact sized.trans (size.symm.trans holds.size.symm)
      · exact absurd (holds.availIn.symm.trans zero) idle
    · cases rest
      exact { room := filled, block := fun _ => ⟨block, data, sized.trans size.symm⟩,
              null := ⟨fun none => absurd none (proper found.nextIn), fun zero => absurd zero idle⟩, backed, power }

end Running

/-- `next_out` is `data + used`, and `avail_out` no more than what is left of the output behind that. -/
structure OutputWindow (b : OutBuffer) : Prop where
  pointer : ∃ block, b.data = some block ∧ block.size = b.size ∧ b.nextOut = some (block.address, b.used)
  inside : b.used.toNat + b.availOut.toNat ≤ b.size.toNat

/-- Whenever this call comes to `deflate`, that can write into the output only. -/
def DeflateInside (deflateBound : SizeT → SizeT) (b : OutBuffer) (call : OutAppend) : Prop :=
  call.data.bytes = [] ∨ ∀ calling, b.callDeflate deflateBound call = .ok calling → OutputWindow calling

/-- The output does not become smaller than what it holds; and where input is pending and `buf` has no room for the new
    data behind it, the output has at least as much room as `buf` once that was grown. -/
def WindowFits (deflateBound : SizeT → SizeT) (b : OutBuffer) (call : OutAppend) : Prop :=
  let more := call.data.bytes.length
  let bound := deflateBound (b.availIn.setWidth 64 + BitVec.ofNat 64 more)
  let output := outputSize b.size.toNat b.used.toNat bound.toNat
  more = 0 ∨ OutsideBuf b.toGzipBuffer more ∨
    b.used.toNat ≤ output ∧ (InputFits b.toGzipBuffer more ∨
      b.used.toNat + (bufGrown b.bufSize.toNat b.availIn.toNat more - b.availIn.toNat) % 2 ^ 32 ≤ output)

section Runs

variable {deflateBound : SizeT → SizeT} {b : OutBuffer} {call : OutAppend}

theorem window_iff {bound : SizeT} {more : Nat} {calling : OutBuffer} (found : Calling bound b more calling) :
    OutputWindow calling ↔
      b.used.toNat ≤ outputSize b.size.toNat b.used.toNat bound.toNat ∧ (InputFits b.toGzipBuffer more ∨
        b.used.toNat + (bufGrown b.bufSize.toNat b.availIn.toNat more - b.availIn.toNat) % 2 ^ 32 ≤
          outputSize b.size.toNat b.used.toNat bound.toNat) := by
  rw [← found.size, ← found.used]
  by_cases fits : InputFits b.toGzipBuffer more
  · have whole := found.whole fits
    constructor
    · intro window
      have inside := window.inside
      exact ⟨by omega, .inl fits⟩
    · intro ⟨room, _⟩
      refine { pointer := found.pointer, inside := ?_ }
      rw [whole, BitVec.toNat_setWidth, BitVec.toNat_sub_of_le room]
      omega
  · have grown := found.grown fits
    constructor
    · intro window
      have inside := window.inside
      exact ⟨by omega, .inr (by omega)⟩
    · intro ⟨room, other⟩
      have inside := other.resolve_left fits
      exact { pointer := found.pointer, inside := by omega }

theorem fits_iff_inside (arranged : Arranged b) :
    WindowFits deflateBound b call ↔ DeflateInside deflateBound b call := by
  unfold WindowFits DeflateInside
  dsimp only
  rw [List.length_eq_zero_iff]
  by_cases none : call.data.bytes = []
  · exact ⟨fun _ => .inl none, fun _ => .inl none⟩
  · rcases @call_deflate_cases b call deflateBound arranged none with ⟨outside, lost⟩ | ⟨inside, calling, called, found⟩
    · constructor
      · intro _
        right
        intro calling called
        rw [lost] at called
        cases called
      · exact fun _ => .inr (.inl outside)
    · have window := window_iff found
      constructor
      · intro fits
        right
        intro other called'
        rw [called] at called'
        cases called'
        exact window.mpr ((fits.resolve_left none).resolve_left inside)
      · intro holds
        exact .inr (.inr (window.mp (holds.resolve_left none calling called)))

theorem append_arranged {next : OutBuffer} (arranged : Arranged b) (fits : WindowFits deflateBound b call)
    (returned : b.bufferAppendData deflateBound call = .ok next) : Arranged next := by
  have inside := (fits_iff_inside arranged).mp fits
  unfold OutBuffer.bufferAppendData at returned
  by_cases none : call.data.bytes = []
  · dsimp only at returned
    rw [if_pos ((size_zero call.data).mpr none)] at returned
    cases returned
    exact arranged
  · dsimp only at returned
    rw [if_neg fun zero => none ((size_zero call.data).mp zero)] at returned
    obtain ⟨calling, called, ran⟩ := returned_bind returned
    have window := inside.resolve_left none calling called
    rcases @call_deflate_cases b call deflateBound arranged none with ⟨-, lost⟩ | ⟨-, calling', called', found⟩
    · rw [called] at lost
      cases lost
    · rw [called] at called'
      cases called'
      exact run_deflate_arranged found window.inside ran

theorem arranged_new (size : SizeT) : Arranged (OutBuffer.bufferSetGzip size) where
  room := Nat.zero_le _
  block := by
    intro large
    exact ⟨{ address := 0, size }, if_neg large, rfl⟩
  null := ⟨fun _ => rfl, fun _ => rfl⟩
  backed := rfl
  power := .inl rfl

/-- `deflate` fills an output of nine bytes and leaves one byte of the input. -/
def oneLeft : OutAppend where
  data := { bytes := [1#8, 2#8], object := by decide }
  consumed := 1
  produced := 9

/-- The next data, for which `buf` has one byte less than it needs behind that. -/
def oneShort : OutAppend where
  data := { bytes := List.replicate 1024 3#8, object := by rw [List.length_replicate]; decide }
  consumed := 0

def sevenMore (size : SizeT) : SizeT := size + 7#64

theorem oneLeft_pending :
    ∃ b, runAll (OutBuffer.bufferAppendData sevenMore) (OutBuffer.bufferSetGzip 0#64) [oneLeft] = .ok b ∧ b.used = 9#64 ∧
      b.size = 9#64 ∧ b.availIn = 1#32 ∧ b.bufSize = 1024#64 ∧ Arranged b := by
  have fits : WindowFits sevenMore (OutBuffer.bufferSetGzip 0#64) oneLeft :=
    .inr (.inr ⟨Nat.zero_le _, .inl (.inl rfl)⟩)
  exact ⟨_, rfl, rfl, rfl, rfl, rfl, append_arranged (arranged_new 0#64) fits rfl⟩

theorem grown_twice : bufGrown 1024 1 1024 = 2048 := by
  have eleven : Nat.clog 2 1025 = 11 := by
    apply Nat.le_antisymm
    · exact Nat.clog_le_of_le_pow (by decide)
    · exact (Nat.lt_clog_iff_pow_lt (by decide)).mpr (by decide)
  unfold bufGrown
  rw [if_neg (by decide), eleven]
  rfl

end Runs

end ZapeProof
