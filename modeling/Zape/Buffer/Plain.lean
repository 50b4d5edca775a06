import Zape.Buffer.Pending
import Zape.Machine.Loop
import Zape.Zig.Text

/-! `ape_buffer.c`: what is appended to a buffer that does not compress. -/
namespace ZapeModel

open Machine

/-- What `malloc` or `realloc` returned, with the bytes that were written to it. -/
structure BufferMemory where
  size : SizeT
  cells : Nat → Option Byte := fun _ => none

/-- `buffer` without its `zbuffer`. -/
structure PlainBuffer where
  data : Option BufferMemory := none
  size : SizeT := 0#64
  used : SizeT := 0#64

/-- A string in C, whose zero byte is not one of these. -/
structure StringObject extends DataObject where
  terminated : 0#8 ∉ bytes

inductive AppendCall
  | data (object : DataObject)
  | tolower (object : DataObject)
  | char (byte : Byte)
  | string (object : StringObject)
  | stringN (object : DataObject)

inductive AppendFailure
  | fault (fault : Fault)
  | endless
  deriving DecidableEq, Repr

/-- `strlen` -/
def StringObject.length (string : StringObject) : SizeT := BitVec.ofNat 64 string.bytes.length

def DataObject.size (object : DataObject) : SizeT := BitVec.ofNat 64 object.bytes.length

def BufferMemory.realloc (memory : Option BufferMemory) (size : SizeT) : BufferMemory :=
  match memory with
  | none => { size }
  | some old => { size, cells := fun index => if index < old.size.toNat then old.cells index else none }

namespace PlainBuffer

def bufferNew (size : SizeT) : PlainBuffer := { size, data := if size = 0#64 then none else some { size } }

def bufferPrepareFor (b : PlainBuffer) (size forsize : SizeT) : PlainBuffer :=
  if b.size = 0#64 then { size, used := 0#64, data := some { size } }
  else if b.size.ult (b.used + forsize) then
    let size := b.size + if size = 0#64 then 1#64 else size
    { b with size, data := some (BufferMemory.realloc b.data size) }
  else b

def bufferPrepare (b : PlainBuffer) (size : SizeT) : PlainBuffer := b.bufferPrepareFor size size

/-- A write to `data`, or a `memcpy`. -/
def write (b : PlainBuffer) (index : SizeT) (values : List Byte) : Except AppendFailure PlainBuffer :=
  match b.data with
  | none => .error (.fault .nullDereference)
  | some memory =>
    if index.toNat + values.length ≤ memory.size.toNat then
      .ok { b with data := some { memory with cells := writeCells memory.cells index.toNat (values.map some) } }
    else .error (.fault .wildPointer)

def bufferAppendData (b : PlainBuffer) (data : DataObject) : Except AppendFailure PlainBuffer :=
  if data.size = 0#64 then .ok b
  else
    let b := b.bufferPrepare (data.size + 1#64)
    (b.write b.used data.bytes).bind fun b =>
      (b.write (b.used + data.size) [0#8]).map fun b => { b with used := b.used + data.size }

/-- One turn of the loop of `buffer_append_data_tolower`, whose counter is an `unsigned int`. -/
def lowerTurn (data : DataObject) (state : PlainBuffer × BitVec 32) :
    Turn (PlainBuffer × BitVec 32) (Except AppendFailure PlainBuffer) :=
  let (b, i) := state
  if (i.setWidth 64).ult data.size then
    match data.bytes[i.toNat]? with
    | none => .done (.error (.fault .wildPointer))
    | some byte =>
      match b.write (b.used + i.setWidth 64) [Zig.ascii.toLower byte] with
      | .error failure => .done (.error failure)
      | .ok b => .again (b, i + 1#32)
  else .done (.ok b)

/-- A loop that has had a turn for every value of its counter goes on for ever. -/
def bufferAppendDataTolower (b : PlainBuffer) (data : DataObject) : Except AppendFailure PlainBuffer :=
  match loop (lowerTurn data) (2 ^ 32 + 1) (b.bufferPrepare (data.size + 1#64), 0#32) with
  | none => .error .endless
  | some (.error failure) => .error failure
  | some (.ok b) => (b.write (b.used + data.size) [0#8]).map fun b => { b with used := b.used + data.size }

def bufferAppendChar (b : PlainBuffer) (data : Byte) : Except AppendFailure PlainBuffer :=
  let b := b.bufferPrepareFor 1024#64 1#64
  (b.write b.used [data]).map fun b => { b with used := b.used + 1#64 }

def bufferAppendStringN (b : PlainBuffer) (string : DataObject) (length : SizeT) : Except AppendFailure PlainBuffer :=
  let b := b.bufferPrepare (length + 1#64)
  (b.write b.used (string.bytes.take length.toNat)).bind fun b =>
    let b := { b with used := b.used + length }
    b.write b.used [0#8]

def bufferAppendString (b : PlainBuffer) (string : StringObject) : Except AppendFailure PlainBuffer :=
  b.bufferAppendStringN string.toDataObject string.length

def perform (b : PlainBuffer) : AppendCall → Except AppendFailure PlainBuffer
  | .data object => b.bufferAppendData object
  | .tolower object => b.bufferAppendDataTolower object
  | .char byte => b.bufferAppendChar byte
  | .string object => b.bufferAppendString object
  | .stringN object => b.bufferAppendStringN object object.size

end PlainBuffer

end ZapeModel

namespace ZapeProof

open Machine ZapeModel

/-- What `data[0]` to `data[used - 1]` hold. -/
def contentsOf (b : PlainBuffer) : List (Option Byte) :=
  match b.data with
  | none => []
  | some memory => readCells memory.cells 0 b.used.toNat

def appendedBytes : AppendCall → List Byte
  | .data object | .stringN object => object.bytes
  | .tolower object => object.bytes.map Zig.ascii.toLower
  | .char byte => [byte]
  | .string object => object.bytes

/-- The size of a buffer that is prepared for so many bytes by growing so much, as a number without a limit. -/
def grownSize (b : PlainBuffer) (size forsize : Nat) : Nat :=
  if b.size = 0#64 then size
  else if b.size.toNat < b.used.toNat + forsize then b.size.toNat + size
  else b.size.toNat

/-- No size exceeds a `size_t`, and no counter of a loop an `unsigned int`. -/
def SizesFit (b : PlainBuffer) : AppendCall → Prop
  | .data object => object.bytes = [] ∨ grownSize b (object.bytes.length + 1) (object.bytes.length + 1) < 2 ^ 64
  | .tolower object =>
    object.bytes.length < 2 ^ 32 ∧ grownSize b (object.bytes.length + 1) (object.bytes.length + 1) < 2 ^ 64
  | .char _ => grownSize b 1024 1 < 2 ^ 64
  | .string object => grownSize b (object.bytes.length + 1) (object.bytes.length + 1) < 2 ^ 64
  | .stringN object => grownSize b (object.bytes.length + 1) (object.bytes.length + 1) < 2 ^ 64

/-- A buffer that holds these bytes, and the byte behind them. -/
structure Filled (b : PlainBuffer) (bytes : List Byte) (mark : Option Byte) : Prop where
  used : b.used.toNat = bytes.length
  room : bytes.length ≤ b.size.toNat
  marked : mark ≠ none → bytes.length < b.size.toNat
  memory : b.data = none ∧ b.size = 0#64 ∨
    ∃ memory, b.data = some memory ∧ memory.size = b.size ∧ b.size ≠ 0#64 ∧ Begins memory.cells bytes mark

section Prepare

variable {b : PlainBuffer} {bytes : List Byte} {mark : Option Byte}

theorem filled_new (size : SizeT) : Filled (PlainBuffer.bufferNew size) [] none where
  used := rfl
  room := Nat.zero_le _
  marked := fun some => absurd rfl some
  memory := by
    unfold PlainBuffer.bufferNew
    by_cases empty : size = 0#64
    · rw [if_pos empty]
      exact .inl ⟨rfl, empty⟩
    · rw [if_neg empty]
      refine .inr ⟨_, rfl, rfl, empty, fun index => ?_⟩
      show none = _
      simp

theorem Filled.contents (filled : Filled b bytes mark) : contentsOf b = bytes.map some := by
  unfold contentsOf
  rcases filled.memory with ⟨null, empty⟩ | ⟨memory, held, -, -, begins⟩
  · have room := filled.room
    rw [empty] at room
    have none : bytes = [] := List.eq_nil_of_length_eq_zero (Nat.le_zero.mp room)
    rw [null, none]
    rfl
  · simp only [held]
    rw [filled.used]
    exact begins_read begins

/-- A buffer behind whose bytes these values were written, with room for so many more. -/
structure Prepared (b : PlainBuffer) (bytes values : List Byte) (mark : Option Byte) (count : Nat) : Prop where
  used : b.used.toNat = bytes.length
  enough : bytes.length + values.length + count ≤ b.size.toNat
  held : ∃ memory, b.data = some memory ∧ memory.size = b.size ∧ Begins memory.cells (bytes ++ values) mark

theorem realloc_size (memory : Option BufferMemory) (size : SizeT) : (BufferMemory.realloc memory size).size = size := by
  cases memory <;> rfl

variable {size forsize : SizeT}

theorem Filled.empty (filled : Filled b bytes mark) (empty : b.size = 0#64) : bytes = [] ∧ mark = none := by
  have room := filled.room
  rw [empty] at room
  have none : bytes = [] := List.eq_nil_of_length_eq_zero (Nat.le_zero.mp room)
  refine ⟨none, ?_⟩
  by_contra marked
  have inside := filled.marked marked
  rw [empty] at inside
  exact Nat.not_lt_zero _ inside

theorem Filled.prepare (filled : Filled b bytes mark) (more : forsize.toNat ≤ size.toNat) (some : 0 < forsize.toNat)
    (fits : grownSize b size.toNat forsize.toNat < 2 ^ 64) :
    Prepared (b.bufferPrepareFor size forsize) bytes [] mark forsize.toNat := by
  have used := filled.used
  have room := filled.room
  have bound := b.size.isLt
  unfold PlainBuffer.bufferPrepareFor
  unfold grownSize at fits
  by_cases empty : b.size = 0#64
  · obtain ⟨rfl, rfl⟩ := filled.empty empty
    rw [if_pos empty]
    refine { used := rfl, enough := ?_, held := ⟨_, rfl, rfl, begins_none⟩ }
    show 0 + 0 + forsize.toNat ≤ size.toNat
    omega
  · rw [if_neg empty] at fits ⊢
    obtain ⟨memory, data, same, begins⟩ :
        ∃ memory, b.data = Option.some memory ∧ memory.size = b.size ∧ Begins memory.cells bytes mark := by
      rcases filled.memory with ⟨-, none⟩ | ⟨memory, data, same, -, begins⟩
      · exact absurd none empty
      · exact ⟨memory, data, same, begins⟩
    have sum : (b.used + forsize).toNat = b.used.toNat + forsize.toNat := by
      rw [BitVec.toNat_add]
      split at fits <;> omega
    have order : b.size.ult (b.used + forsize) = true ↔ b.size.toNat < b.used.toNat + forsize.toNat := by
      rw [BitVec.ult, decide_eq_true_eq, sum]
    have proper : size ≠ 0#64 := by
      rintro rfl
      exact absurd (some.trans_le more) (Nat.lt_irrefl 0)
    by_cases short : b.size.toNat < b.used.toNat + forsize.toNat
    · rw [if_pos short] at fits
      have grown : (b.size + size).toNat = b.size.toNat + size.toNat := by
        rw [BitVec.toNat_add]
        omega
      rw [if_pos (order.mpr short), if_neg proper]
      refine { used := used, enough := ?_, held := ⟨_, rfl, realloc_size _ _, ?_⟩ }
      · show bytes.length + 0 + forsize.toNat ≤ (b.size + size).toNat
        omega
      · rw [data, List.append_nil]
        have size_eq : memory.size.toNat = b.size.toNat := by rw [same]
        apply begins_below begins
        · omega
        · intro marked
          have inside := filled.marked marked
          omega
    · rw [if_neg fun grows => short (order.mp grows)]
      refine { used := used, enough := ?_, held := ⟨memory, data, same, ?_⟩ }
      · rw [List.length_nil]
        omega
      · rw [List.append_nil]
        exact begins

end Prepare

section Write

variable {b : PlainBuffer} {bytes values : List Byte} {mark : Option Byte} {count : Nat} {index : SizeT}

theorem write_held {memory : BufferMemory} (data : b.data = some memory) (more : List Byte)
    (inside : index.toNat + more.length ≤ memory.size.toNat) :
    b.write index more = .ok { b with
      data := some { memory with cells := writeCells memory.cells index.toNat (more.map some) } } := by
  unfold PlainBuffer.write
  simp only [data, if_pos inside]

theorem write_used (used : SizeT) (more : List Byte) :
    PlainBuffer.write { b with used } index more = (b.write index more).map fun b => { b with used } := by
  unfold PlainBuffer.write
  cases b.data with
  | none => rfl
  | some memory =>
    dsimp only
    split <;> rfl

theorem Prepared.write (prepared : Prepared b bytes values mark count)
    (here : index.toNat = bytes.length + values.length) (more : List Byte) (fits : more.length ≤ count) :
    ∃ written, b.write index more = .ok written ∧
      Prepared written bytes (values ++ more) (if more = [] then mark else none) (count - more.length) := by
  obtain ⟨memory, data, same, begins⟩ := prepared.held
  have enough := prepared.enough
  have size_eq : memory.size.toNat = b.size.toNat := by rw [same]
  have inside : index.toNat + more.length ≤ memory.size.toNat := by omega
  refine ⟨_, write_held data more inside, prepared.used, ?_, _, rfl, same, ?_⟩
  · rw [List.length_append]
    dsimp only
    omega
  · have written := begins_append begins more
    rw [List.length_append, ← here, List.append_assoc] at written
    exact written

/-- A byte behind the values that does not become one of them. -/
theorem Prepared.write_mark (prepared : Prepared b bytes values mark count)
    (here : index.toNat = bytes.length + values.length) (byte : Byte) (fits : 1 ≤ count) :
    ∃ written, b.write index [byte] = .ok written ∧ Prepared written bytes values (some byte) count := by
  obtain ⟨memory, data, same, begins⟩ := prepared.held
  have enough := prepared.enough
  have size_eq : memory.size.toNat = b.size.toNat := by rw [same]
  have inside : index.toNat + [byte].length ≤ memory.size.toNat := by
    rw [List.length_singleton]
    omega
  refine ⟨_, write_held data [byte] inside, prepared.used, enough, _, rfl, same, ?_⟩
  have written := begins_mark begins byte
  rw [List.length_append, ← here] at written
  exact written

theorem Prepared.filled (prepared : Prepared b bytes values mark count) {used : SizeT}
    (behind : used.toNat = bytes.length + values.length) (marked : mark ≠ none → 0 < count)
    (some : 0 < values.length + count) : Filled { b with used } (bytes ++ values) mark := by
  obtain ⟨memory, data, same, begins⟩ := prepared.held
  have enough := prepared.enough
  have large : b.size ≠ 0#64 := by
    intro zero
    rw [zero, BitVec.toNat_zero] at enough
    omega
  refine { used := ?_, room := ?_, marked := ?_, memory := .inr ⟨memory, data, same, large, begins⟩ }
  · rw [List.length_append]
    exact behind
  · rw [List.length_append]
    dsimp only
    omega
  · intro proper
    have room := marked proper
    rw [List.length_append]
    dsimp only
    omega

end Write

section Append

variable {b : PlainBuffer} {bytes : List Byte} {mark : Option Byte}

theorem object_size (object : DataObject) : object.size.toNat = object.bytes.length := size_toNat object

theorem object_size_zero (object : DataObject) : object.size = 0#64 ↔ object.bytes = [] := size_zero object

theorem object_room (object : DataObject) : (object.size + 1#64).toNat = object.bytes.length + 1 := by
  have bound := object.object
  rw [BitVec.toNat_add, object_size, BitVec.toNat_one (by decide)]
  omega

theorem Filled.prepare_object (filled : Filled b bytes mark) {object : DataObject}
    (fits : grownSize b (object.bytes.length + 1) (object.bytes.length + 1) < 2 ^ 64) :
    Prepared (b.bufferPrepare (object.size + 1#64)) bytes [] mark (object.bytes.length + 1) := by
  have room := object_room object
  rw [← room] at fits ⊢
  exact filled.prepare (Nat.le_refl _) (by omega) fits

/-- The end of the appending functions: a zero byte, and the new value of `used`. -/
theorem Prepared.terminate {values : List Byte} {size : SizeT} (prepared : Prepared b bytes values mark 1)
    (length : size.toNat = values.length) :
    ∃ written, b.write (b.used + size) [0#8] = .ok written ∧ written.used = b.used ∧
      Filled { written with used := written.used + size } (bytes ++ values) (some 0#8) := by
  have enough := prepared.enough
  have used := prepared.used
  have limit := b.size.isLt
  have behind : (b.used + size).toNat = bytes.length + values.length := by
    rw [BitVec.toNat_add]
    omega
  obtain ⟨written, wrote, kept⟩ := prepared.write_mark behind 0#8 (Nat.le_refl 1)
  have same : written.used = b.used := BitVec.eq_of_toNat_eq (kept.used.trans used.symm)
  rw [← same] at behind
  exact ⟨written, wrote, same, kept.filled behind (fun _ => Nat.one_pos) (by omega)⟩

theorem Filled.copy (filled : Filled b bytes mark) (object : DataObject)
    (fits : grownSize b (object.bytes.length + 1) (object.bytes.length + 1) < 2 ^ 64) :
    ∃ written, (b.bufferPrepare (object.size + 1#64)).write (b.bufferPrepare (object.size + 1#64)).used object.bytes =
        .ok written ∧ ∃ mark, Prepared written bytes object.bytes mark 1 := by
  have prepared := filled.prepare_object fits
  obtain ⟨written, wrote, kept⟩ := prepared.write prepared.used object.bytes (Nat.le_succ _)
  rw [Nat.add_sub_cancel_left] at kept
  exact ⟨written, wrote, _, kept⟩

theorem append_data_filled (filled : Filled b bytes mark) {object : DataObject}
    (fits : SizesFit b (.data object)) :
    ∃ next, b.bufferAppendData object = .ok next ∧
      Filled next (bytes ++ object.bytes) (if object.bytes = [] then mark else some 0#8) := by
  have length := object_size object
  unfold PlainBuffer.bufferAppendData
  by_cases none : object.bytes = []
  · rw [if_pos ((object_size_zero object).mpr none), if_pos none, none, List.append_nil]
    exact ⟨b, rfl, filled⟩
  · rw [if_neg fun zero => none ((object_size_zero object).mp zero), if_neg none]
    obtain ⟨written, wrote, mark, kept⟩ := filled.copy object (fits.resolve_left none)
    obtain ⟨ended, wrote', -, filled'⟩ := kept.terminate length
    dsimp only
    rw [wrote]
    show ∃ next, (written.write _ _).map _ = .ok next ∧ _
    rw [wrote']
    exact ⟨_, rfl, filled'⟩

theorem append_string_n_filled (filled : Filled b bytes mark) {object : DataObject}
    (fits : SizesFit b (.stringN object)) :
    ∃ next, b.bufferAppendStringN object object.size = .ok next ∧
      Filled next (bytes ++ object.bytes) (some 0#8) := by
  have length := object_size object
  obtain ⟨written, wrote, mark, kept⟩ := filled.copy object fits
  obtain ⟨ended, wrote', same, filled'⟩ := kept.terminate length
  unfold PlainBuffer.bufferAppendStringN
  dsimp only
  rw [length, List.take_length, wrote]
  show ∃ next, PlainBuffer.write { written with used := written.used + object.size } (written.used + object.size) [0#8] =
    .ok next ∧ _
  rw [write_used, wrote', ← same]
  exact ⟨_, rfl, filled'⟩

theorem append_char_filled (filled : Filled b bytes mark) {byte : Byte} (fits : SizesFit b (.char byte)) :
    ∃ next, b.bufferAppendChar byte = .ok next ∧ Filled next (bytes ++ [byte]) none := by
  have prepared : Prepared (b.bufferPrepareFor 1024#64 1#64) bytes [] mark 1 :=
    filled.prepare (by decide) Nat.one_pos fits
  obtain ⟨written, wrote, kept⟩ := prepared.write prepared.used [byte] (Nat.le_refl 1)
  have enough := kept.enough
  have used := kept.used
  have limit := written.size.isLt
  have behind : (written.used + 1#64).toNat = bytes.length + 1 := by
    rw [BitVec.toNat_add, BitVec.toNat_one (by decide)]
    rw [List.nil_append, List.length_singleton] at enough
    omega
  unfold PlainBuffer.bufferAppendChar
  dsimp only
  rw [wrote]
  exact ⟨_, rfl, kept.filled behind (fun marked => absurd rfl marked) Nat.one_pos⟩

theorem lower_loop {object : DataObject} (short : object.bytes.length < 2 ^ 32) {done todo : List Byte}
    (split : object.bytes = done ++ todo) {i : BitVec 32} (here : i.toNat = done.length)
    (prepared : Prepared b bytes (done.map Zig.ascii.toLower) mark (todo.length + 1)) {fuel : Nat}
    (turns : todo.length < fuel) :
    ∃ written mark, loop (PlainBuffer.lowerTurn object) fuel (b, i) = some (.ok written) ∧
      Prepared written bytes (object.bytes.map Zig.ascii.toLower) mark 1 := by
  have length := object_size object
  have wide : (i.setWidth 64).toNat = done.length := by
    rw [BitVec.toNat_setWidth_of_le (by decide), here]
  have whole : object.bytes.length = done.length + todo.length := by rw [split, List.length_append]
  have order : (i.setWidth 64).ult object.size = true ↔ done.length < object.bytes.length := by
    rw [BitVec.ult, decide_eq_true_eq, wide, length]
  -- on the bytes that are still to be written
  induction todo generalizing b done mark i fuel with
  | nil =>
    obtain ⟨fuel, rfl⟩ : ∃ rest, fuel = rest + 1 := ⟨fuel - 1, by omega⟩
    have ends : PlainBuffer.lowerTurn object (b, i) = .done (.ok b) := by
      unfold PlainBuffer.lowerTurn
      dsimp only
      rw [if_neg fun less => absurd (order.mp less) (by rw [whole]; exact Nat.lt_irrefl _)]
    rw [List.append_nil] at split
    rw [split]
    exact ⟨b, mark, loop_done ends fuel, prepared⟩
  | cons byte todo ih =>
    obtain ⟨fuel, rfl⟩ : ∃ rest, fuel = rest + 1 := ⟨fuel - 1, by omega⟩
    rw [List.length_cons] at whole prepared turns
    have enough := prepared.enough
    have used := prepared.used
    have limit := b.size.isLt
    rw [List.length_map] at enough
    have behind : (b.used + i.setWidth 64).toNat = bytes.length + (done.map Zig.ascii.toLower).length := by
      rw [BitVec.toNat_add, wide, List.length_map]
      omega
    obtain ⟨written, wrote, kept⟩ := prepared.write behind [Zig.ascii.toLower byte] (Nat.le_add_left 1 _)
    have next : PlainBuffer.lowerTurn object (b, i) = .again (written, i + 1#32) := by
      have read : object.bytes[i.toNat]? = some byte := by
        rw [split, here, List.getElem?_append_right (Nat.le_refl _), Nat.sub_self]
        rfl
      unfold PlainBuffer.lowerTurn
      dsimp only
      rw [if_pos (order.mpr (by omega))]
      simp only [read, wrote]
    have here' : (i + 1#32).toNat = (done ++ [byte]).length := by
      rw [BitVec.toNat_add, here, List.length_append, List.length_singleton]
      show (done.length + 1) % 2 ^ 32 = _
      omega
    have split' : object.bytes = (done ++ [byte]) ++ todo := by
      rw [split, List.append_assoc, List.singleton_append]
    rw [loop_again next]
    rw [← List.map_singleton, ← List.map_append] at kept
    apply ih split' here' kept (by omega)
    · rw [BitVec.toNat_setWidth_of_le (by decide), here']
    · rw [split', List.length_append]
    · rw [BitVec.ult, decide_eq_true_eq, BitVec.toNat_setWidth_of_le (by decide), here', length]

theorem append_data_tolower_filled (filled : Filled b bytes mark) {object : DataObject}
    (fits : SizesFit b (.tolower object)) :
    ∃ next, b.bufferAppendDataTolower object = .ok next ∧
      Filled next (bytes ++ object.bytes.map Zig.ascii.toLower) (some 0#8) := by
  have prepared := filled.prepare_object fits.2
  have first : (0#32).toNat = ([] : List Byte).length := rfl
  obtain ⟨written, mark, looped, kept⟩ :=
    lower_loop fits.1 (List.nil_append object.bytes).symm first prepared (Nat.lt_succ_of_lt fits.1)
  have length : object.size.toNat = (object.bytes.map Zig.ascii.toLower).length := by
    rw [List.length_map]
    exact object_size object
  obtain ⟨ended, wrote, -, filled'⟩ := kept.terminate length
  unfold PlainBuffer.bufferAppendDataTolower
  rw [looped]
  dsimp only
  rw [wrote]
  exact ⟨_, rfl, filled'⟩

/-- The byte that a call leaves behind the bytes of a buffer. -/
def markAfter (mark : Option Byte) : AppendCall → Option Byte
  | .data object => if object.bytes = [] then mark else some 0#8
  | .char _ => none
  | .tolower _ | .string _ | .stringN _ => some 0#8

/-- No append writes outside of the memory, and each adds its bytes. -/
theorem perform_filled (filled : Filled b bytes mark) {call : AppendCall} (fits : SizesFit b call) :
    ∃ next, b.perform call = .ok next ∧ Filled next (bytes ++ appendedBytes call) (markAfter mark call) := by
  cases call with
  | data object => exact append_data_filled filled fits
  | tolower object => exact append_data_tolower_filled filled fits
  | char byte => exact append_char_filled filled fits
  | string object => exact append_string_n_filled filled fits
  | stringN object => exact append_string_n_filled filled fits

end Append

section Runs

variable {size : SizeT} {calls : List AppendCall}

theorem run_filled (fits : EachStep PlainBuffer.perform (PlainBuffer.bufferNew size) calls SizesFit)
    {before after : List AppendCall} (split : calls = before ++ after) :
    ∃ b, runAll PlainBuffer.perform (PlainBuffer.bufferNew size) before = .ok b ∧
      Filled b (before.flatMap appendedBytes) (before.foldl markAfter none) := by
  induction before using List.reverseRecOn generalizing after with
  | nil => exact ⟨_, rfl, filled_new size⟩
  | append_singleton before call ih =>
    have earlier : calls = before ++ call :: after := by rw [split, List.append_assoc, List.singleton_append]
    obtain ⟨b, reached, filled⟩ := ih earlier
    obtain ⟨next, performed, filled'⟩ := perform_filled filled (fits before call after b earlier reached)
    refine ⟨next, (runAll_snoc reached).trans performed, ?_⟩
    rw [List.flatMap_append, List.flatMap_singleton, List.foldl_concat]
    exact filled'

def allocatedSize (b : PlainBuffer) : SizeT :=
  match b.data with
  | none => 0#64
  | some memory => memory.size

theorem Filled.allocated {b : PlainBuffer} {bytes : List Byte} {mark : Option Byte} (filled : Filled b bytes mark) :
    allocatedSize b = b.size := by
  unfold allocatedSize
  rcases filled.memory with ⟨null, empty⟩ | ⟨memory, held, same, -, -⟩
  · rw [null, empty]
  · simp only [held]
    exact same

instance (b : PlainBuffer) : (call : AppendCall) → Decidable (SizesFit b call)
  | .data _ => inferInstanceAs (Decidable (_ ∨ _))
  | .tolower _ => inferInstanceAs (Decidable (_ ∧ _))
  | .char _ | .string _ | .stringN _ => inferInstanceAs (Decidable (_ < _))

/-- A buffer holds what was appended to it, in the order of the calls. -/
theorem buffer_holds_appended (fits : EachStep PlainBuffer.perform (PlainBuffer.bufferNew size) calls SizesFit) :
    ∃ b, runAll PlainBuffer.perform (PlainBuffer.bufferNew size) calls = .ok b ∧ b.used.toNat ≤ b.size.toNat ∧
      allocatedSize b = b.size ∧ contentsOf b = (calls.flatMap appendedBytes).map some := by
  obtain ⟨b, reached, filled⟩ := run_filled fits (List.append_nil calls).symm
  have room := filled.room
  rw [← filled.used] at room
  exact ⟨b, reached, room, filled.allocated, filled.contents⟩

/-- `"Ab"` in lower case, one character, and a string, in a buffer that has no memory at first. -/
def headerCalls : List AppendCall :=
  [.tolower ⟨[0x41#8, 0x62#8], by decide⟩, .char 0x3a#8, .string ⟨⟨[0x43#8], by decide⟩, by decide⟩]

theorem header_holds_appended :
    EachStep PlainBuffer.perform (PlainBuffer.bufferNew 0#64) headerCalls SizesFit ∧
      ∃ b, runAll PlainBuffer.perform (PlainBuffer.bufferNew 0#64) headerCalls = .ok b ∧ b.used.toNat ≤ b.size.toNat ∧
        allocatedSize b = b.size ∧ contentsOf b = [some 0x61#8, some 0x62#8, some 0x3a#8, some 0x43#8] := by
  have fits : EachStep PlainBuffer.perform (PlainBuffer.bufferNew 0#64) headerCalls SizesFit :=
    each_of_check (by decide +kernel)
  exact ⟨fits, buffer_holds_appended fits⟩

end Runs

end ZapeProof
