import Zape.Buffer.Pending

/-! The output of a buffer that compresses, next to its input. -/
namespace ZapeModel

open Machine

structure OutBlock where
  address : Nat
  size : SizeT

/-- `data` and `next_out` with the other fields. `outBlocks` is the number of the blocks of `data` so far. -/
structure OutBuffer extends GzipBuffer where
  data : Option OutBlock := none
  nextOut : Option (Nat × SizeT) := none
  outBlocks : Nat := 0

structure OutAppend extends GzipAppend where
  dataMoved : Bool := false

namespace OutBuffer

def zbufferAdjustOutbuf (b : OutBuffer) : OutBuffer :=
  { b with
    toGzipBuffer := b.toGzipBuffer.zbufferAdjustOutbuf
    nextOut := b.data.map fun block => (block.address, b.used) }

/-- `malloc`, or `realloc` of the block that is there. -/
def reallocData (b : OutBuffer) (size : SizeT) (moved : Bool) : OutBuffer :=
  match b.data with
  | none => { b with data := some { address := b.outBlocks, size }, outBlocks := b.outBlocks + 1 }
  | some old =>
    if moved then { b with data := some { address := b.outBlocks, size }, outBlocks := b.outBlocks + 1 }
    else { b with data := some { old with size } }

def bufferPrepare (b : OutBuffer) (size : SizeT) (moved : Bool) : OutBuffer :=
  let b :=
    if b.size = 0#64 then
      { b with size, used := 0#64, data := some { address := b.outBlocks, size }, outBlocks := b.outBlocks + 1 }
    else if (b.used + size).ult b.size || b.used + size = b.size then b
    else
      let size := b.size + if size = 0#64 then 1#64 else size
      { b with size }.reallocData size moved
  b.zbufferAdjustOutbuf

/-- `buffer_new`, and then `buffer_set_gzip`. -/
def bufferSetGzip (size : SizeT) : OutBuffer :=
  zbufferAdjustOutbuf { size, data := if size = 0#64 then none else some { address := 0, size }, outBlocks := 1 }

/-- The first part of `buffer_append_data`, up to the call of `deflate`. -/
def callDeflate (deflateBound : SizeT → SizeT) (b : OutBuffer) (call : OutAppend) : Except Fault OutBuffer :=
  let data := call.data.bytes
  let size : SizeT := BitVec.ofNat 64 data.length
  let b := b.bufferPrepare (deflateBound (b.availIn.setWidth 64 + size)) call.dataMoved
  ((b.toGzipBuffer.zbufferPrepapreBuf size call.moved).takeData data).map fun taken =>
    { b with toGzipBuffer := { taken with availIn := (taken.availIn.setWidth 64 + size).setWidth 32 } }

def deflate (b : OutBuffer) (call : OutAppend) : Except Fault OutBuffer :=
  let produced := min call.produced b.availOut.toNat
  (b.toGzipBuffer.deflate call.toGzipAppend).map fun deflated =>
    { b with
      toGzipBuffer := deflated
      nextOut := b.nextOut.map fun (address, offset) => (address, offset + BitVec.ofNat 64 produced) }

/-- The call of `deflate`, and the rest of `buffer_append_data`. -/
def runDeflate (b : OutBuffer) (call : OutAppend) : Except Fault OutBuffer :=
  let data := call.data.bytes
  let size : SizeT := BitVec.ofNat 64 data.length
  let consumed := b.availIn
  let outsize := b.availOut
  (b.deflate call).bind fun b =>
    let b := { b with used := b.used + (outsize - b.availOut).setWidth 64 }
    let consumed := consumed - b.availIn
    let b := if b.availIn = 0#32 then { b with nextIn := .null } else b
    if call.result = DeflateResult.ok ∧ b.availIn ≠ 0#32 then
      (b.toGzipBuffer.keepRest data (size - consumed.signExtend 64) call.movedAgain).map fun kept =>
        { b with toGzipBuffer := kept }
    else .ok b

def bufferAppendData (deflateBound : SizeT → SizeT) (b : OutBuffer) (call : OutAppend) : Except Fault OutBuffer :=
  let size : SizeT := BitVec.ofNat 64 call.data.bytes.length
  if size = 0#64 then .ok b else (b.callDeflate deflateBound call).bind (·.runDeflate call)

end OutBuffer

end ZapeModel

namespace ZapeProof

open Machine ZapeModel

section Projection

variable {b : OutBuffer} {call : OutAppend} {deflateBound : SizeT → SizeT}

theorem reallocData_inner (b : OutBuffer) (size : SizeT) (moved : Bool) :
    (b.reallocData size moved).toGzipBuffer = b.toGzipBuffer := by
  unfold OutBuffer.reallocData
  split
  · rfl
  · split <;> rfl

theorem prepare_inner (b : OutBuffer) (size : SizeT) (moved : Bool) :
    (b.bufferPrepare size moved).toGzipBuffer = b.toGzipBuffer.bufferPrepare size := by
  unfold OutBuffer.bufferPrepare GzipBuffer.bufferPrepare
  by_cases empty : b.size = 0#64
  · rw [if_pos empty, if_pos empty]
    rfl
  · rw [if_neg empty, if_neg empty]
    by_cases room : ((b.used + size).ult b.size || b.used + size = b.size) = true
    · rw [if_pos room, if_pos room]
      rfl
    · rw [if_neg room, if_neg room]
      unfold OutBuffer.zbufferAdjustOutbuf
      dsimp only
      rw [reallocData_inner]

/-- The output does not change what becomes of the input. -/
theorem append_inner (b : OutBuffer) (call : OutAppend) :
    (b.bufferAppendData deflateBound call).map (·.toGzipBuffer) =
      b.toGzipBuffer.bufferAppendData deflateBound call.toGzipAppend := by
  unfold OutBuffer.bufferAppendData GzipBuffer.bufferAppendData
  dsimp only
  by_cases zero : BitVec.ofNat 64 call.data.bytes.length = 0#64
  · rw [if_pos zero, if_pos zero]
    rfl
  · rw [if_neg zero, if_neg zero]
    unfold OutBuffer.callDeflate
    dsimp only
    rw [prepare_inner]
    cases GzipBuffer.takeData _ call.data.bytes with
    | error fault => rfl
    | ok taken =>
      show ((OutBuffer.runDeflate _ call).map _ : Except Fault GzipBuffer) = Except.bind (GzipBuffer.deflate _ _) _
      unfold OutBuffer.runDeflate OutBuffer.deflate
      dsimp only
      cases GzipBuffer.deflate _ call.toGzipAppend with
      | error fault => rfl
      | ok deflated =>
        dsimp only [Except.map, Except.bind]
        by_cases idle : deflated.availIn = 0#32
        · simp only [if_pos idle]
          rw [if_neg fun rest => rest.2 idle, if_neg fun rest => rest.2 idle]
        · simp only [if_neg idle]
          by_cases ok : call.result = DeflateResult.ok ∧ deflated.availIn ≠ 0#32
          · rw [if_pos ok, if_pos ok]
            cases GzipBuffer.keepRest _ _ _ _ with
            | error fault => rfl
            | ok kept => rfl
          · rw [if_neg ok, if_neg ok]

end Projection

end ZapeProof
