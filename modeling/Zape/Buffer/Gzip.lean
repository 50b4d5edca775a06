import Zape.Ape.Jobs
import Zape.Machine.Cells

/-! `ape_buffer.c`: data appended to a buffer that compresses it. -/
namespace ZapeModel

open Machine

/-- What `malloc` and `realloc` return, with the bytes that were written to it. -/
structure Block where
  address : Nat
  size : SizeT
  cells : Nat → Option Byte := fun _ => none

/-- What `next_in` points to: nothing, the data of the call that runs, or memory that `malloc` returned. -/
inductive InPointer
  | null
  | data (offset : Nat)
  | block (address offset : Nat)
  deriving DecidableEq, Repr

def InPointer.advance (count : Nat) : InPointer → InPointer
  | .null => .null
  | .data offset => .data (offset + count)
  | .block address offset => .block address (offset + count)

/-- `buffer` with its `zbuffer`. `total` is what `deflate` consumed, and `blocks` the number of the blocks so far. -/
structure GzipBuffer where
  size : SizeT := 0#64
  used : SizeT := 0#64
  nextIn : InPointer := .null
  availIn : BitVec 32 := 0#32
  availOut : BitVec 32 := 0#32
  buf : Option Block := none
  bufSize : SizeT := 0#64
  total : List (Option Byte) := []
  blocks : Nat := 0

/-- What `deflate` returns. -/
inductive DeflateResult
  | ok
  | streamEnd
  | bufError
  | streamError
  deriving DecidableEq, Repr

/-- A call of `buffer_append_data`, with what `deflate` does in it: it consumes and produces at most so many bytes. The
    first and the second time that the memory of `buf` is grown, it may move. -/
structure GzipAppend where
  data : DataObject
  consumed : Nat
  produced : Nat := 0
  result : DeflateResult := .ok
  moved : Bool := false
  movedAgain : Bool := false

namespace GzipBuffer

def zbufferAdjustOutbuf (b : GzipBuffer) : GzipBuffer := { b with availOut := (b.size - b.used).setWidth 32 }

def bufferPrepare (b : GzipBuffer) (size : SizeT) : GzipBuffer :=
  let b :=
    if b.size = 0#64 then { b with size, used := 0#64 }
    else if (b.used + size).ult b.size || b.used + size = b.size then b
    else { b with size := b.size + if size = 0#64 then 1#64 else size }
  b.zbufferAdjustOutbuf

/-- `buffer_set_gzip` on a buffer of this size. -/
def bufferSetGzip (size : SizeT) : GzipBuffer := zbufferAdjustOutbuf { size }

/-- The loop of `zbuffer_prepapre_buf`; 64 turns shift every bit out. -/
def doubled (availIn inputSize : SizeT) : Nat → SizeT → SizeT
  | 0, bufsize => bufsize
  | turns + 1, bufsize =>
    if (bufsize - availIn).ult inputSize then doubled availIn inputSize turns (bufsize <<< 1) else bufsize

/-- `malloc`, or `realloc` of the block that is there. -/
def realloc (b : GzipBuffer) (bufsize : SizeT) (moved : Bool) : GzipBuffer :=
  match b.buf with
  | none => { b with buf := some { address := b.blocks, size := bufsize }, blocks := b.blocks + 1 }
  | some old =>
    let cells := fun index => if index < old.size.toNat then old.cells index else none
    if moved then { b with buf := some { address := b.blocks, size := bufsize, cells }, blocks := b.blocks + 1 }
    else { b with buf := some { address := old.address, size := bufsize, cells } }

/-- The comparison is signed. -/
def zbufferPrepapreBuf (b : GzipBuffer) (inputSize : SizeT) (moved : Bool) : GzipBuffer :=
  let availIn := b.availIn.setWidth 64
  if b.availIn = 0#32 then b
  else if inputSize.sle (b.bufSize - availIn) then b
  else
    let bufsize := doubled availIn inputSize 64 (if (1024#64).ult b.bufSize then b.bufSize else 1024#64)
    { { b with bufSize := bufsize }.realloc bufsize moved with availOut := (bufsize - availIn).setWidth 32 }

/-- So many bytes from `next_in` on. -/
def readIn (b : GzipBuffer) (data : List Byte) (count : Nat) : Except Fault (List (Option Byte)) :=
  if count = 0 then .ok []
  else
    match b.nextIn with
    | .null => .error .nullDereference
    | .data offset =>
      if offset + count ≤ data.length then .ok (readCells (data[·]?) offset count) else .error .wildPointer
    | .block address offset =>
      match b.buf with
      | none => .error .wildPointer
      | some block =>
        if address = block.address ∧ offset + count ≤ block.size.toNat then .ok (readCells block.cells offset count)
        else .error .wildPointer

/-- `memcpy` and `memmove` to `buf`. -/
def writeBuf (b : GzipBuffer) (start : Nat) (values : List (Option Byte)) : Except Fault GzipBuffer :=
  match b.buf with
  | none => .error .nullDereference
  | some block =>
    if start + values.length ≤ block.size.toNat then
      .ok { b with buf := some { block with cells := writeCells block.cells start values } }
    else .error .wildPointer

/-- `deflate` consumes a prefix of the `avail_in` bytes at `next_in`. -/
def deflate (b : GzipBuffer) (call : GzipAppend) : Except Fault GzipBuffer :=
  let consumed := min call.consumed b.availIn.toNat
  let produced := min call.produced b.availOut.toNat
  (b.readIn call.data.bytes consumed).map fun bytes =>
    { b with
      nextIn := b.nextIn.advance consumed
      availIn := b.availIn - BitVec.ofNat 32 consumed
      availOut := b.availOut - BitVec.ofNat 32 produced
      total := b.total ++ bytes }

/-- The new data is put behind what is pending in `buf`, or read where it is if nothing is. -/
def takeData (b : GzipBuffer) (data : List Byte) : Except Fault GzipBuffer :=
  if b.nextIn ≠ .null then b.writeBuf b.availIn.toNat (data.map some) else .ok { b with nextIn := .data 0 }

/-- What is left of the input is moved to the start of `buf`. -/
def keepRest (b : GzipBuffer) (data : List Byte) (count : SizeT) (moved : Bool) : Except Fault GzipBuffer :=
  let b := b.zbufferPrepapreBuf (b.availIn.setWidth 64) moved
  (b.readIn data count.toNat).bind fun bytes =>
    (b.writeBuf 0 bytes).map fun b =>
      match b.buf with
      | none => { b with nextIn := .null }
      | some block => { b with nextIn := .block block.address 0 }

def bufferAppendData (deflateBound : SizeT → SizeT) (b : GzipBuffer) (call : GzipAppend) : Except Fault GzipBuffer :=
  let data := call.data.bytes
  let size : SizeT := BitVec.ofNat 64 data.length
  if size = 0#64 then .ok b
  else
    let b := b.bufferPrepare (deflateBound (b.availIn.setWidth 64 + size))
    ((b.zbufferPrepapreBuf size call.moved).takeData data).bind fun b =>
      let consumed : BitVec 32 := (b.availIn.setWidth 64 + size).setWidth 32
      let outsize := b.availOut
      ({ b with availIn := (b.availIn.setWidth 64 + size).setWidth 32 }.deflate call).bind fun b =>
        let b := { b with used := b.used + (outsize - b.availOut).setWidth 64 }
        let consumed := consumed - b.availIn
        let b := if b.availIn = 0#32 then { b with nextIn := .null } else b
        if call.result = DeflateResult.ok ∧ b.availIn ≠ 0#32 then b.keepRest data (size - consumed.signExtend 64) call.movedAgain
        else .ok b

end GzipBuffer

/-- A run of calls, with the data that was appended. -/
structure GzipRun where
  buffer : GzipBuffer
  appended : List Byte := []

def GzipRun.step (deflateBound : SizeT → SizeT) (run : GzipRun) (call : GzipAppend) : Except Fault GzipRun :=
  (run.buffer.bufferAppendData deflateBound call).map fun buffer =>
    { buffer, appended := run.appended ++ call.data.bytes }

end ZapeModel
