import Zape.Buffer.Plain

/-! The zero byte behind the data of a buffer, which `buffer_camelify` looks for. -/
namespace ZapeModel

open Machine

def toupper (byte : Byte) : Byte :=
  if 0x61 ≤ byte.toNat ∧ byte.toNat ≤ 0x7a then byte &&& 0xdf#8 else byte

namespace PlainBuffer

/-- `*pSource`, and the memory that it is read from. Memory that was not written holds any bytes. -/
def fetch (garbage : Nat → Byte) (b : PlainBuffer) (index : Nat) : Except Fault (BufferMemory × Byte) :=
  match b.data with
  | none => .error .nullDereference
  | some memory =>
    if index < memory.size.toNat then .ok (memory, (memory.cells index).getD (garbage index))
    else .error .wildPointer

/-- One turn of the loop of `buffer_camelify`, whose pointer is at this index of the data, and `pchar`. -/
def camelTurn (garbage : Nat → Byte) (state : PlainBuffer × Nat × Byte) :
    Turn (PlainBuffer × Nat × Byte) (Except Fault (PlainBuffer × Nat)) :=
  let (b, index, pchar) := state
  match b.fetch garbage index with
  | .error fault => .done (.error fault)
  | .ok (memory, byte) =>
    if byte = 0#8 then .done (.ok (b, index))
    else if pchar = 0x2d#8 then
      let byte := toupper byte
      .again ({ b with data := some { memory with cells := writeCells memory.cells index [some byte] } }, index + 1, byte)
    else .again (b, index + 1, byte)

/-- What so many turns lead to: the buffer, and where the pointer stopped. -/
def bufferCamelify (garbage : Nat → Byte) (turns : Nat) (b : PlainBuffer) : Option (Except Fault (PlainBuffer × Nat)) :=
  loop (camelTurn garbage) turns (b, 0, 0x2d#8)

end PlainBuffer

end ZapeModel

namespace ZapeProof

open Machine ZapeModel

def Terminated (b : PlainBuffer) : Prop :=
  b.used.toNat < b.size.toNat ∧ ∃ memory, b.data = some memory ∧ memory.cells b.used.toNat = some 0#8

/-- Whatever is in memory that was not written, `buffer_camelify` comes to an end inside of the data, and not behind the
    index `used`. -/
def CamelifyStops (b : PlainBuffer) : Prop :=
  ∀ garbage, ∃ camelified index, index ≤ b.used.toNat ∧
    b.bufferCamelify garbage (b.used.toNat + 1) = some (.ok (camelified, index))

section Camelify

variable {b : PlainBuffer} {garbage : Nat → Byte} {memory : BufferMemory} {stop index : Nat} {pchar : Byte}

theorem fetch_held (data : b.data = some memory) (inside : index < memory.size.toNat) :
    b.fetch garbage index = .ok (memory, (memory.cells index).getD (garbage index)) := by
  unfold PlainBuffer.fetch
  simp only [data, if_pos inside]

/-- From an index that is not behind a zero byte, the loop comes to its end at that byte or before. -/
theorem camel_loop (data : b.data = some memory) (zero : memory.cells stop = some 0#8) (inside : stop < memory.size.toNat)
    (before : index ≤ stop) {fuel : Nat} (turns : stop - index < fuel) :
    ∃ camelified last, last ≤ stop ∧
      loop (PlainBuffer.camelTurn garbage) fuel (b, index, pchar) = some (.ok (camelified, last)) := by
  have fetched : b.fetch garbage index = .ok (memory, (memory.cells index).getD (garbage index)) :=
    fetch_held data (by omega)
  -- on the distance to the zero byte
  induction rest : stop - index generalizing b memory index pchar fuel with
  | zero =>
    obtain rfl : index = stop := by omega
    obtain ⟨fuel, rfl⟩ : ∃ left, fuel = left + 1 := ⟨fuel - 1, by omega⟩
    have ends : PlainBuffer.camelTurn garbage (b, index, pchar) = .done (.ok (b, index)) := by
      unfold PlainBuffer.camelTurn
      simp only [fetched, zero, Option.getD_some, if_true]
    exact ⟨b, index, before, loop_done ends fuel⟩
  | succ rest ih =>
    obtain ⟨fuel, rfl⟩ : ∃ left, fuel = left + 1 := ⟨fuel - 1, by omega⟩
    by_cases null : (memory.cells index).getD (garbage index) = 0#8
    · have ends : PlainBuffer.camelTurn garbage (b, index, pchar) = .done (.ok (b, index)) := by
        unfold PlainBuffer.camelTurn
        simp only [fetched, if_pos null]
      exact ⟨b, index, before, loop_done ends fuel⟩
    · by_cases dash : pchar = 0x2d#8
      · have goes : ∃ next byte, PlainBuffer.camelTurn garbage (b, index, pchar) = .again (next, index + 1, byte) ∧
            next.data = some { memory with
              cells := writeCells memory.cells index [some (toupper ((memory.cells index).getD (garbage index)))] } := by
          unfold PlainBuffer.camelTurn
          simp only [fetched, if_neg null, if_pos dash]
          exact ⟨_, _, rfl, rfl⟩
        obtain ⟨next, byte, turn, data'⟩ := goes
        have behind : ¬ index = stop := by omega
        have zero' : writeCells memory.cells index [some (toupper ((memory.cells index).getD (garbage index)))] stop =
            some 0#8 := by
          unfold writeCells
          rw [if_pos before, List.getElem?_eq_none (by simp; omega), Option.getD_none, zero]
        rw [loop_again turn]
        exact ih data' zero' inside (by omega) (by omega) (fetch_held data' (by dsimp only; omega)) (by omega)
      · have turn : PlainBuffer.camelTurn garbage (b, index, pchar) =
            .again (b, index + 1, (memory.cells index).getD (garbage index)) := by
          unfold PlainBuffer.camelTurn
          simp only [fetched, if_neg null, if_neg dash]
        rw [loop_again turn]
        exact ih data zero inside (by omega) (by omega) (fetch_held data (by omega)) (by omega)

theorem camelify_stops {bytes : List Byte} (filled : Filled b bytes (some 0#8)) : Terminated b ∧ CamelifyStops b := by
  have used := filled.used
  have inside := filled.marked (Option.some_ne_none _)
  rcases filled.memory with ⟨-, empty⟩ | ⟨memory, data, same, -, begins⟩
  · rw [empty] at inside
    exact absurd inside (Nat.not_lt_zero _)
  · have zero : memory.cells b.used.toNat = some 0#8 := by
      rw [used, begins bytes.length, if_pos rfl]
    have below : b.used.toNat < memory.size.toNat := by
      rw [same]
      omega
    constructor
    · exact ⟨by omega, memory, data, zero⟩
    · intro garbage
      exact camel_loop data zero below (Nat.zero_le _) (by omega)

end Camelify

section Lost

variable {b : PlainBuffer} {bytes : List Byte} {mark : Option Byte} {size forsize : SizeT} {memory : BufferMemory}

/-- Where a size is too large for a `size_t`, the memory does not reach to the last byte that is asked for. -/
theorem Filled.prepare_lost (filled : Filled b bytes mark) (more : forsize.toNat ≤ size.toNat) (some : 0 < forsize.toNat)
    (large : ¬ grownSize b size.toNat forsize.toNat < 2 ^ 64) :
    (b.bufferPrepareFor size forsize).used.toNat = bytes.length ∧
      ∃ memory, (b.bufferPrepareFor size forsize).data = Option.some memory ∧
        memory.size.toNat < bytes.length + forsize.toNat := by
  have used := filled.used
  have room := filled.room
  have bound := b.size.isLt
  have limit := size.isLt
  unfold PlainBuffer.bufferPrepareFor
  unfold grownSize at large
  by_cases empty : b.size = 0#64
  · rw [if_pos empty] at large
    exact absurd limit large
  · rw [if_neg empty] at large ⊢
    have short : b.size.toNat < b.used.toNat + forsize.toNat := by
      by_contra enough
      rw [if_neg enough] at large
      exact large bound
    rw [if_pos short] at large
    have proper : size ≠ 0#64 := by
      intro zero
      rw [zero, BitVec.toNat_zero] at more
      omega
    by_cases grows : b.size.ult (b.used + forsize) = true
    · rw [if_pos grows, if_neg proper]
      refine ⟨used, _, rfl, ?_⟩
      rw [realloc_size]
      show (b.size + size).toNat < _
      rw [BitVec.toNat_add]
      omega
    · rw [if_neg grows]
      rcases filled.memory with ⟨-, none⟩ | ⟨memory, data, same, -, -⟩
      · exact absurd none empty
      · refine ⟨used, memory, data, ?_⟩
        rw [same]
        omega

theorem Filled.prepare_object_lost (filled : Filled b bytes mark) {object : DataObject}
    (large : ¬ grownSize b (object.bytes.length + 1) (object.bytes.length + 1) < 2 ^ 64) :
    (b.bufferPrepare (object.size + 1#64)).used.toNat = bytes.length ∧
      ∃ memory, (b.bufferPrepare (object.size + 1#64)).data = Option.some memory ∧
        memory.size.toNat < bytes.length + (object.bytes.length + 1) := by
  have room := object_room object
  rw [← room] at large ⊢
  exact filled.prepare_lost (Nat.le_refl _) (by omega) large

/-- A write that went well was inside of the memory, which is still as large. -/
theorem write_inside {next : PlainBuffer} {index : SizeT} {values : List Byte} (data : b.data = some memory)
    (wrote : b.write index values = .ok next) :
    index.toNat + values.length ≤ memory.size.toNat ∧ next.used = b.used ∧
      ∃ memory', next.data = some memory' ∧ memory'.size = memory.size := by
  unfold PlainBuffer.write at wrote
  simp only [data] at wrote
  split at wrote
  · rename_i inside
    cases wrote
    exact ⟨inside, rfl, _, rfl, rfl⟩
  · cases wrote

theorem copy_lost {next : PlainBuffer} {object : DataObject} (used : b.used.toNat = bytes.length)
    (data : b.data = some memory) (short : memory.size.toNat < bytes.length + (object.bytes.length + 1))
    {finish : PlainBuffer → PlainBuffer → PlainBuffer}
    (appended : ((b.write b.used object.bytes).bind fun written =>
      (written.write (written.used + object.size) [0#8]).map (finish written)) = .ok next) : False := by
  have length := object_size object
  have limit := memory.size.isLt
  obtain ⟨written, wrote, rest⟩ := returned_bind appended
  obtain ⟨ended, wrote', -⟩ := returned_map rest
  obtain ⟨inside, same, memory', data', size'⟩ := write_inside data wrote
  obtain ⟨inside', -⟩ := write_inside data' wrote'
  rw [same, size', BitVec.toNat_add, List.length_singleton] at inside'
  omega

/-- A buffer behind whose bytes so many were written, in memory of this size. -/
structure Lowered (start : PlainBuffer) (size : SizeT) (count : Nat) (b : PlainBuffer) : Prop where
  used : b.used = start.used
  held : ∃ memory, b.data = some memory ∧ memory.size = size
  inside : count = 0 ∨ start.used.toNat + count ≤ size.toNat

/-- A counter that comes round to zero begins again with the first byte. -/
theorem lower_turn_inside {object : DataObject} {start next : PlainBuffer} {size : SizeT} {i : BitVec 32}
    (lowered : Lowered start size i.toNat b) {values : List Byte} (one : values.length = 1)
    (wrote : b.write (b.used + i.setWidth 64) values = .ok next) (less : i.toNat < object.bytes.length) :
    (i + 1#32).toNat ≤ object.bytes.length ∧ Lowered start size (i + 1#32).toNat next := by
  obtain ⟨memory, data, size_eq⟩ := lowered.held
  obtain ⟨written, same, memory', data', size'⟩ := write_inside data wrote
  have bound := i.isLt
  have limit := size.isLt
  have used := start.used.isLt
  have wide : (i.setWidth 64).toNat = i.toNat := BitVec.toNat_setWidth_of_le (by decide)
  have inside := lowered.inside
  rw [size_eq, lowered.used, BitVec.toNat_add, wide, one] at written
  have next_i : (i + 1#32).toNat = (i.toNat + 1) % 2 ^ 32 := BitVec.toNat_add _ _
  constructor
  · omega
  · exact { used := same.trans lowered.used, held := ⟨memory', data', size'.trans size_eq⟩, inside := by omega }

/-- A loop that has come to its end had a value of its counter for each byte, and wrote all of them inside of the memory. -/
theorem lower_ended {object : DataObject} {start written : PlainBuffer} {fuel : Nat} (data : start.data = some memory)
    (looped : loop (PlainBuffer.lowerTurn object) fuel (start, 0#32) = some (.ok written)) :
    object.bytes.length < 2 ^ 32 ∧ Lowered start memory.size object.bytes.length written := by
  have length := object_size object
  apply loop_result (fun state => state.2.toNat ≤ object.bytes.length ∧ Lowered start memory.size state.2.toNat state.1)
    (fun result => ∀ written, result = .ok written →
      object.bytes.length < 2 ^ 32 ∧ Lowered start memory.size object.bytes.length written) ?_ ?_ looped written rfl
  · intro (b, i) ⟨here, lowered⟩
    dsimp only at here lowered
    have bound := i.isLt
    have wide : (i.setWidth 64).toNat = i.toNat := BitVec.toNat_setWidth_of_le (by decide)
    have order : (i.setWidth 64).ult object.size = true ↔ i.toNat < object.bytes.length := by
      rw [BitVec.ult, decide_eq_true_eq, wide, length]
    unfold PlainBuffer.lowerTurn
    dsimp only
    by_cases less : i.toNat < object.bytes.length
    · rw [if_pos (order.mpr less), List.getElem?_eq_getElem less]
      dsimp only
      cases wrote : b.write (b.used + i.setWidth 64) [Zig.ascii.toLower object.bytes[i.toNat]] with
      | error failure =>
        right
        refine ⟨_, rfl, ?_⟩
        intro written ok
        cases ok
      | ok next =>
        left
        exact ⟨_, rfl, lower_turn_inside lowered rfl wrote less⟩
    · rw [if_neg fun less' => less (order.mp less')]
      right
      refine ⟨_, rfl, ?_⟩
      intro written ok
      cases ok
      have all : i.toNat = object.bytes.length := by omega
      rw [all] at lowered bound
      exact ⟨bound, lowered⟩
  · exact ⟨Nat.zero_le _, { used := rfl, held := ⟨memory, data, rfl⟩, inside := .inl rfl }⟩

theorem append_data_lost {next : PlainBuffer} (filled : Filled b bytes mark) {object : DataObject}
    (unfit : ¬ SizesFit b (.data object)) : b.bufferAppendData object ≠ .ok next := by
  intro appended
  obtain ⟨proper, large⟩ := not_or.mp unfit
  obtain ⟨used, memory, data, short⟩ := filled.prepare_object_lost large
  unfold PlainBuffer.bufferAppendData at appended
  rw [if_neg fun zero => proper ((object_size_zero object).mp zero)] at appended
  exact copy_lost used data short appended

theorem append_string_n_lost {next : PlainBuffer} (filled : Filled b bytes mark) {object : DataObject}
    (unfit : ¬ SizesFit b (.stringN object)) : b.bufferAppendStringN object object.size ≠ .ok next := by
  intro appended
  have length := object_size object
  obtain ⟨used, memory, data, short⟩ := filled.prepare_object_lost unfit
  unfold PlainBuffer.bufferAppendStringN at appended
  dsimp only at appended
  simp only [write_used] at appended
  rw [length, List.take_length] at appended
  exact copy_lost used data short appended

theorem append_char_lost {next : PlainBuffer} (filled : Filled b bytes mark) {byte : Byte}
    (unfit : ¬ SizesFit b (.char byte)) : b.bufferAppendChar byte ≠ .ok next := by
  intro appended
  obtain ⟨used, memory, data, short⟩ :
      (b.bufferPrepareFor 1024#64 1#64).used.toNat = bytes.length ∧
        ∃ memory, (b.bufferPrepareFor 1024#64 1#64).data = some memory ∧ memory.size.toNat < bytes.length + 1 :=
    filled.prepare_lost (by decide) Nat.one_pos unfit
  obtain ⟨written, wrote, -⟩ := returned_map appended
  obtain ⟨inside, -⟩ := write_inside data wrote
  rw [used, List.length_singleton] at inside
  omega

theorem append_data_tolower_lost {next : PlainBuffer} (filled : Filled b bytes mark) {object : DataObject}
    (unfit : ¬ SizesFit b (.tolower object)) : b.bufferAppendDataTolower object ≠ .ok next := by
  intro appended
  have size := object_size object
  unfold PlainBuffer.bufferAppendDataTolower at appended
  split at appended
  · cases appended
  · cases appended
  · rename_i written looped
    obtain ⟨ended, wrote, -⟩ := returned_map appended
    by_cases fits : grownSize b (object.bytes.length + 1) (object.bytes.length + 1) < 2 ^ 64
    · obtain ⟨memory, data, -⟩ := (filled.prepare_object fits).held
      obtain ⟨short, -⟩ := lower_ended data looped
      exact unfit ⟨short, fits⟩
    · obtain ⟨used, memory, data, short⟩ := filled.prepare_object_lost fits
      obtain ⟨-, lowered⟩ := lower_ended data looped
      have limit := memory.size.isLt
      have before := lowered.inside
      obtain ⟨memory', data', size'⟩ := lowered.held
      obtain ⟨inside, -⟩ := write_inside data' wrote
      rw [lowered.used, size', BitVec.toNat_add, size, List.length_singleton] at inside
      have wide := (b.bufferPrepare (object.size + 1#64)).used.isLt
      omega

theorem perform_lost {next : PlainBuffer} (filled : Filled b bytes mark) {call : AppendCall}
    (unfit : ¬ SizesFit b call) : b.perform call ≠ .ok next := by
  cases call with
  | data object => exact append_data_lost filled unfit
  | tolower object => exact append_data_tolower_lost filled unfit
  | char byte => exact append_char_lost filled unfit
  | string object => exact append_string_n_lost filled unfit
  | stringN object => exact append_string_n_lost filled unfit

end Lost

section Runs

variable {size : SizeT} {calls : List AppendCall} {b : PlainBuffer}

theorem filled_of_run (reached : runAll PlainBuffer.perform (PlainBuffer.bufferNew size) calls = .ok b) :
    Filled b (calls.flatMap appendedBytes) (calls.foldl markAfter none) := by
  induction calls using List.reverseRecOn generalizing b with
  | nil =>
    cases reached
    exact filled_new size
  | append_singleton before call ih =>
    obtain ⟨found, middle, performed⟩ := runAll_last reached
    have fits : SizesFit found call := by
      by_contra unfit
      exact perform_lost (ih middle) unfit performed
    obtain ⟨next, performed', filled⟩ := perform_filled (ih middle) fits
    rw [performed] at performed'
    cases performed'
    rw [List.flatMap_append, List.flatMap_singleton, List.foldl_concat]
    exact filled

theorem fits_of_run (reached : runAll PlainBuffer.perform (PlainBuffer.bufferNew size) calls = .ok b) :
    EachStep PlainBuffer.perform (PlainBuffer.bufferNew size) calls SizesFit := by
  intro before call after found split middle
  rw [split] at reached
  obtain ⟨next, performed⟩ := runAll_middle reached middle
  by_contra unfit
  exact perform_lost (filled_of_run middle) unfit performed

theorem mark_other {mark : Option Byte} {call : AppendCall} (proper : ∀ object, call = .data object → object.bytes ≠ [])
    (other : ∀ byte, call ≠ .char byte) : markAfter mark call = some 0#8 := by
  cases call with
  | data object => exact if_neg (proper object rfl)
  | char byte => exact absurd rfl (other byte)
  | tolower object => rfl
  | string object => rfl
  | stringN object => rfl

theorem not_terminated {bytes : List Byte} (filled : Filled b bytes none) : ¬ Terminated b := by
  intro ⟨_, memory, data, zero⟩
  rcases filled.memory with ⟨null, -⟩ | ⟨memory', data', -, -, begins⟩
  · rw [null] at data
    cases data
  · rw [data] at data'
    cases data'
    rw [filled.used, begins bytes.length, if_pos rfl] at zero
    cases zero

/-- Only `buffer_append_char` leaves a buffer without a zero byte behind its data, until another call writes one. -/
theorem terminated_iff_not_char (some : calls ≠ []) (proper : ∀ object, .data object ∈ calls → object.bytes ≠ []) :
    (∃ b, runAll PlainBuffer.perform (PlainBuffer.bufferNew size) calls = .ok b ∧ Terminated b ∧ CamelifyStops b) ↔
      EachStep PlainBuffer.perform (PlainBuffer.bufferNew size) calls SizesFit ∧
        ∀ byte, calls.getLast? ≠ Option.some (.char byte) := by
  obtain ⟨before, call, rfl⟩ : ∃ before call, calls = before ++ [call] :=
    ⟨calls.dropLast, calls.getLast some, (List.dropLast_append_getLast some).symm⟩
  rw [List.getLast?_concat]
  constructor
  · intro ⟨b, reached, terminated, _⟩
    refine ⟨fits_of_run reached, ?_⟩
    intro byte char
    have filled := filled_of_run reached
    rw [List.foldl_concat, Option.some.inj char] at filled
    exact not_terminated filled terminated
  · intro ⟨fits, other⟩
    obtain ⟨b, reached, filled⟩ := run_filled fits (List.append_nil _).symm
    rw [List.foldl_concat, mark_other] at filled
    · exact ⟨b, reached, camelify_stops filled⟩
    · intro object here
      apply proper object
      rw [here]
      exact List.mem_append_right _ (List.mem_singleton_self _)
    · intro byte char
      exact other byte (congrArg Option.some char)

/-- `"x-"`, and `"A"` in lower case: the zero byte is the last byte that the buffer has. -/
theorem header_terminated :
    ∃ b, runAll PlainBuffer.perform (PlainBuffer.bufferNew 4#64)
        [.data ⟨[0x78#8, 0x2d#8], by decide⟩, .tolower ⟨[0x41#8], by decide⟩] = .ok b ∧
      Terminated b ∧ CamelifyStops b := by
  refine (terminated_iff_not_char (by decide) ?_).mpr ⟨each_of_check (by decide +kernel), ?_⟩
  · intro object member
    simp at member
    simp [member]
  · intro byte
    simp

/-- One character fills a buffer of one byte, and `buffer_camelify` reads on behind it. -/
theorem char_not_terminated :
    ∃ b, runAll PlainBuffer.perform (PlainBuffer.bufferNew 1#64) [.char 0x61#8] = .ok b ∧ b.used = b.size ∧
      ¬ Terminated b ∧ ¬ CamelifyStops b ∧ ∀ garbage, b.bufferCamelify garbage 2 = some (.error .wildPointer) := by
  have reached : ∃ b, runAll PlainBuffer.perform (PlainBuffer.bufferNew 1#64) [.char 0x61#8] = .ok b ∧
      b.used = 1#64 ∧ b.size = 1#64 ∧ ∀ garbage, b.bufferCamelify garbage 2 = some (.error .wildPointer) :=
    ⟨_, rfl, rfl, rfl, fun _ => rfl⟩
  obtain ⟨b, ran, used, size, outside⟩ := reached
  refine ⟨b, ran, used.trans size.symm, ?_, ?_, outside⟩
  · intro ⟨below, _⟩
    rw [used, size] at below
    exact Nat.lt_irrefl _ below
  · intro stops
    obtain ⟨camelified, index, -, stopped⟩ := stops fun _ => 0#8
    rw [used] at stopped
    exact absurd ((outside _).symm.trans stopped) (by simp)

end Runs

end ZapeProof
