import Mathlib.Data.List.Induction
import Zape.Buffer.Terminated

/-! `buffer_to_buffer_utf8` and `buffer_utf8_to_buffer`: bytes that stand for the first 256 characters, and their UTF-8. -/
namespace ZapeModel

open Machine

namespace PlainBuffer

/-- `newb->data[newb->used++] = value`. -/
def push (newb : PlainBuffer) (value : Byte) : Except AppendFailure PlainBuffer :=
  (newb.write newb.used [value]).map fun newb => { newb with used := newb.used + 1#64 }

def pushAll (newb : PlainBuffer) : List Byte → Except AppendFailure PlainBuffer
  | [] => .ok newb
  | value :: values => (newb.push value).bind (·.pushAll values)

/-- `*s` -/
def readByte (garbage : Nat → Byte) (b : PlainBuffer) (s : Nat) : Except AppendFailure Byte :=
  match b.fetch garbage s with
  | .error fault => .error (.fault fault)
  | .ok (_, byte) => .ok byte

/-- What both functions end with. -/
def shrink (newb : PlainBuffer) : Except AppendFailure PlainBuffer :=
  (newb.write newb.used [0#8]).map fun newb =>
    let size := newb.used + 1#64
    if size.ult newb.size then { newb with size, data := some (BufferMemory.realloc newb.data size) } else newb

/-- The branches of `buffer_to_buffer_utf8`. -/
def utf8Bytes (c : BitVec 32) : List Byte :=
  if c < 0x80#32 then [c.setWidth 8]
  else if c < 0x800#32 then [(0xc0#32 ||| (c >>> 6)).setWidth 8, (0x80#32 ||| (c &&& 0x3f#32)).setWidth 8]
  else if c < 0x10000#32 then
    [(0xe0#32 ||| (c >>> 12)).setWidth 8, (0xc0#32 ||| ((c >>> 6) &&& 0x3f#32)).setWidth 8,
      (0x80#32 ||| (c &&& 0x3f#32)).setWidth 8]
  else if c < 0x200000#32 then
    [(0xf0#32 ||| (c >>> 18)).setWidth 8, (0xe0#32 ||| ((c >>> 12) &&& 0x3f#32)).setWidth 8,
      (0xc0#32 ||| ((c >>> 6) &&& 0x3f#32)).setWidth 8, (0x80#32 ||| (c &&& 0x3f#32)).setWidth 8]
  else []

/-- One turn of the loop: the new buffer, where `s` points to in the data, and `pos`. -/
def utf8Turn (garbage : Nat → Byte) (b : PlainBuffer) (state : PlainBuffer × Nat × Int) :
    Turn (PlainBuffer × Nat × Int) (Except AppendFailure PlainBuffer) :=
  let (newb, s, pos) := state
  if 0 < pos then
    match b.readByte garbage s with
    | .error failure => .done (.error failure)
    | .ok byte =>
      match newb.pushAll (utf8Bytes (byte.setWidth 32)) with
      | .error failure => .done (.error failure)
      | .ok newb => .again (newb, s + 1, pos - 1)
  else .done newb.shrink

/-- `pos` is an `int`. -/
def startPos (b : PlainBuffer) : Int := (b.used.setWidth 32).toInt

def bufferToBufferUtf8 (garbage : Nat → Byte) (turns : Nat) (b : PlainBuffer) :
    Option (Except AppendFailure PlainBuffer) :=
  loop (utf8Turn garbage b) turns (bufferNew (b.used * 4#64 + 1#64), 0, b.startPos)

/-- What the branches of `buffer_utf8_to_buffer` make of the bytes from `s` on: the character, and how far they go. -/
def latinChar (garbage : Nat → Byte) (b : PlainBuffer) (s : Nat) (pos : Int) : Except AppendFailure (BitVec 32 × Nat) :=
  (b.readByte garbage s).bind fun s0 =>
    let c := s0.setWidth 32
    if 0xf0#32 ≤ c then
      if 0 ≤ pos - 4 then
        (b.readByte garbage (s + 1)).bind fun s1 =>
          (b.readByte garbage (s + 2)).bind fun s2 =>
            (b.readByte garbage (s + 3)).map fun s3 =>
              (((c &&& 7#32) <<< 18) ||| ((s1.setWidth 32 &&& 63#32) <<< 12) ||| ((s2.setWidth 32 &&& 63#32) <<< 6) |||
                (s3.setWidth 32 &&& 63#32), 4)
      else .ok (0x3f#32, 4)
    else if 0xe0#32 ≤ c then
      if 0 ≤ pos - 3 then
        (b.readByte garbage (s + 1)).bind fun s1 =>
          (b.readByte garbage (s + 2)).map fun s2 =>
            (((c &&& 63#32) <<< 12) ||| ((s1.setWidth 32 &&& 63#32) <<< 6) ||| (s2.setWidth 32 &&& 63#32), 3)
      else .ok (0x3f#32, 3)
    else if 0xc0#32 ≤ c then
      if 0 ≤ pos - 2 then
        (b.readByte garbage (s + 1)).map fun s1 => (((c &&& 63#32) <<< 6) ||| (s1.setWidth 32 &&& 63#32), 2)
      else .ok (0x3f#32, 2)
    else .ok (c, 1)

def latinByte (c : BitVec 32) : Byte := if 0xff#32 < c then 0x3f#8 else c.setWidth 8

def latinTurn (garbage : Nat → Byte) (b : PlainBuffer) (state : PlainBuffer × Nat × Int) :
    Turn (PlainBuffer × Nat × Int) (Except AppendFailure PlainBuffer) :=
  let (newb, s, pos) := state
  if 0 < pos then
    match b.latinChar garbage s pos with
    | .error failure => .done (.error failure)
    | .ok (c, count) =>
      match newb.push (latinByte c) with
      | .error failure => .done (.error failure)
      | .ok newb => .again (newb, s + count, pos - count)
  else .done newb.shrink

def bufferUtf8ToBuffer (garbage : Nat → Byte) (turns : Nat) (b : PlainBuffer) :
    Option (Except AppendFailure PlainBuffer) :=
  loop (latinTurn garbage b) turns (bufferNew (b.used + 1#64), 0, b.startPos)

end PlainBuffer

end ZapeModel

namespace ZapeProof

open Machine ZapeModel

/-- The first character of these bytes as `buffer_utf8_to_buffer` takes it, and the bytes behind it. -/
def firstLatin : List Byte → BitVec 32 × List Byte
  | [] => (0#32, [])
  | s0 :: rest =>
    let c := s0.setWidth 32
    if 0xf0#32 ≤ c then
      match rest with
      | s1 :: s2 :: s3 :: rest =>
        (((c &&& 7#32) <<< 18) ||| ((s1.setWidth 32 &&& 63#32) <<< 12) ||| ((s2.setWidth 32 &&& 63#32) <<< 6) |||
          (s3.setWidth 32 &&& 63#32), rest)
      | _ => (0x3f#32, [])
    else if 0xe0#32 ≤ c then
      match rest with
      | s1 :: s2 :: rest =>
        (((c &&& 63#32) <<< 12) ||| ((s1.setWidth 32 &&& 63#32) <<< 6) ||| (s2.setWidth 32 &&& 63#32), rest)
      | _ => (0x3f#32, [])
    else if 0xc0#32 ≤ c then
      match rest with
      | s1 :: rest => (((c &&& 63#32) <<< 6) ||| (s1.setWidth 32 &&& 63#32), rest)
      | _ => (0x3f#32, [])
    else (c, rest)

theorem firstLatin_shorter (byte : Byte) (bytes : List Byte) :
    (firstLatin (byte :: bytes)).2.length < (byte :: bytes).length := by
  unfold firstLatin
  dsimp only
  split
  · split <;> simp only [List.length_cons, List.length_nil] <;> omega
  · split
    · split <;> simp only [List.length_cons, List.length_nil] <;> omega
    · split
      · split <;> simp only [List.length_cons, List.length_nil] <;> omega
      · simp

def latinOfUtf8 : List Byte → List Byte
  | [] => []
  | byte :: bytes => PlainBuffer.latinByte (firstLatin (byte :: bytes)).1 :: latinOfUtf8 (firstLatin (byte :: bytes)).2
termination_by bytes => bytes.length
decreasing_by exact firstLatin_shorter byte bytes

/-- UTF-8 as the standard has it. -/
def utf8Of (chars : List Char) : List Byte := chars.flatMap fun char => (String.utf8EncodeChar char).map (·.toBitVec)

/-- The character that a byte stands for. -/
def latinChars (bytes : List Byte) : List Char := bytes.map fun byte => Char.ofNat byte.toNat

/-- A character as one byte, if it is one of the first 256. -/
def charByte (char : Char) : Byte := if char.toNat < 256 then BitVec.ofNat 8 char.toNat else 0x3f#8

section Characters

theorem shift_or {high low : BitVec 32} {count : Nat} (below : low.toNat < 2 ^ count)
    (fits : high.toNat * 2 ^ count < 2 ^ 32) :
    ((high <<< count) ||| low).toNat = high.toNat * 2 ^ count + low.toNat := by
  rw [BitVec.toNat_or, BitVec.toNat_shiftLeft, Nat.shiftLeft_eq, Nat.mod_eq_of_lt fits, Nat.mul_comm,
    Nat.two_pow_add_eq_or_of_lt below]

theorem low_six (byte : Byte) : (byte.setWidth 32 &&& 63#32).toNat = byte.toNat % 64 := by
  rw [BitVec.toNat_and, BitVec.toNat_setWidth_of_le (by decide)]
  exact Nat.and_two_pow_sub_one_eq_mod byte.toNat 6

theorem low_three (byte : Byte) : (byte.setWidth 32 &&& 7#32).toNat = byte.toNat % 8 := by
  rw [BitVec.toNat_and, BitVec.toNat_setWidth_of_le (by decide)]
  exact Nat.and_two_pow_sub_one_eq_mod byte.toNat 3

theorem wide_le (bound : BitVec 32) (byte : Byte) : bound ≤ byte.setWidth 32 ↔ bound.toNat ≤ byte.toNat := by
  rw [BitVec.le_def, BitVec.toNat_setWidth_of_le (by decide)]

/-- The bytes of `buffer_to_buffer_utf8` are those of the standard. -/
theorem utf8Bytes_byte : ∀ byte : Byte, PlainBuffer.utf8Bytes (byte.setWidth 32) =
    (String.utf8EncodeChar (Char.ofNat byte.toNat)).map (·.toBitVec) := by
  decide

theorem ofNat_toNat {number : Nat} (small : number < 256) : (UInt8.ofNat number).toBitVec.toNat = number := by
  show number % 2 ^ 8 = number
  exact Nat.mod_eq_of_lt small

theorem latinByte_small {c : BitVec 32} (small : c.toNat < 256) :
    PlainBuffer.latinByte c = BitVec.ofNat 8 c.toNat := by
  have narrow : ¬ 0xff#32 < c := by
    rw [BitVec.lt_def]
    show ¬ 255 < c.toNat
    omega
  rw [PlainBuffer.latinByte, if_neg narrow]
  apply BitVec.eq_of_toNat_eq
  rw [BitVec.toNat_setWidth, BitVec.toNat_ofNat]

theorem latinByte_large {c : BitVec 32} (large : 256 ≤ c.toNat) : PlainBuffer.latinByte c = 0x3f#8 := by
  have wide : 0xff#32 < c := by
    rw [BitVec.lt_def]
    show 255 < c.toNat
    omega
  rw [PlainBuffer.latinByte, if_pos wide]

/-- A character in two bytes comes out as it is, or as a question mark. -/
theorem firstLatin_two {lead next : Byte} {value : Nat} (leads : lead.toNat = 0xc0 + value / 64)
    (follows : next.toNat = 0x80 + value % 64) (bound : value < 0x800) (rest : List Byte) :
    ∃ c : BitVec 32, firstLatin (lead :: next :: rest) = (c, rest) ∧ c.toNat = value := by
  refine ⟨((lead.setWidth 32 &&& 63#32) <<< 6) ||| (next.setWidth 32 &&& 63#32), ?_, ?_⟩
  · unfold firstLatin
    dsimp only
    rw [if_neg (by rw [wide_le, leads]; simp only [BitVec.toNat_ofNat]; omega),
      if_neg (by rw [wide_le, leads]; simp only [BitVec.toNat_ofNat]; omega),
      if_pos (by rw [wide_le, leads]; simp only [BitVec.toNat_ofNat]; omega)]
  · rw [shift_or (by rw [low_six]; omega) (by rw [low_six]; omega), low_six, low_six, leads, follows]
    omega

/-- The lead of three bytes keeps a bit too many, which only makes the character larger. -/
theorem firstLatin_three {lead next last : Byte} (leads : 0xe0 ≤ lead.toNat) (below : lead.toNat < 0xf0)
    (rest : List Byte) : ∃ c : BitVec 32, firstLatin (lead :: next :: last :: rest) = (c, rest) ∧ 256 ≤ c.toNat := by
  refine ⟨((lead.setWidth 32 &&& 63#32) <<< 12) ||| ((next.setWidth 32 &&& 63#32) <<< 6) |||
    (last.setWidth 32 &&& 63#32), ?_, ?_⟩
  · unfold firstLatin
    dsimp only
    rw [if_neg (by rw [wide_le]; simp only [BitVec.toNat_ofNat]; omega),
      if_pos (by rw [wide_le]; simp only [BitVec.toNat_ofNat]; omega)]
  · have low : (((next.setWidth 32 &&& 63#32) <<< 6) ||| (last.setWidth 32 &&& 63#32)).toNat < 2 ^ 12 := by
      rw [shift_or (by rw [low_six]; omega) (by rw [low_six]; omega), low_six, low_six]
      omega
    rw [BitVec.or_assoc, shift_or low (by rw [low_six]; omega), low_six]
    omega

theorem firstLatin_four {lead next third last : Byte} {value : Nat} (leads : lead.toNat = 0xf0 + value / 262144)
    (follows : next.toNat = 0x80 + value / 4096 % 64) (large : 0x10000 ≤ value) (bound : value < 0x200000)
    (rest : List Byte) :
    ∃ c : BitVec 32, firstLatin (lead :: next :: third :: last :: rest) = (c, rest) ∧ 256 ≤ c.toNat := by
  refine ⟨((lead.setWidth 32 &&& 7#32) <<< 18) ||| ((next.setWidth 32 &&& 63#32) <<< 12) |||
    ((third.setWidth 32 &&& 63#32) <<< 6) ||| (last.setWidth 32 &&& 63#32), ?_, ?_⟩
  · unfold firstLatin
    dsimp only
    rw [if_pos (by rw [wide_le, leads]; simp only [BitVec.toNat_ofNat]; omega)]
  · have low : (((third.setWidth 32 &&& 63#32) <<< 6) ||| (last.setWidth 32 &&& 63#32)).toNat < 2 ^ 12 := by
      rw [shift_or (by rw [low_six]; omega) (by rw [low_six]; omega), low_six, low_six]
      omega
    have middle := @shift_or (next.setWidth 32 &&& 63#32) _ 12 low (by rw [low_six]; omega)
    have half : (((next.setWidth 32 &&& 63#32) <<< 12) ||| (((third.setWidth 32 &&& 63#32) <<< 6) |||
        (last.setWidth 32 &&& 63#32))).toNat < 2 ^ 18 := by
      rw [middle, low_six]
      omega
    rw [BitVec.or_assoc, BitVec.or_assoc, shift_or half (by rw [low_three]; omega), middle, low_three, low_six, leads,
      follows]
    omega

theorem firstLatin_char (char : Char) (rest : List Byte) :
    ∃ c, firstLatin ((String.utf8EncodeChar char).map (·.toBitVec) ++ rest) = (c, rest) ∧
      PlainBuffer.latinByte c = charByte char := by
  have value : char.val.toNat = char.toNat := rfl
  have bound : char.toNat < 0x110000 := by
    have valid := char.valid
    simp only [UInt32.isValidChar, Nat.isValidChar] at valid
    omega
  unfold String.utf8EncodeChar charByte
  dsimp only
  rw [value]
  split
  · rename_i small
    have byte : (UInt8.ofNat char.toNat).toBitVec.toNat = char.toNat := ofNat_toNat (by omega)
    refine ⟨(UInt8.ofNat char.toNat).toBitVec.setWidth 32, ?_, ?_⟩
    · show firstLatin ((UInt8.ofNat char.toNat).toBitVec :: rest) = _
      unfold firstLatin
      dsimp only
      rw [if_neg (by rw [wide_le, byte]; simp only [BitVec.toNat_ofNat]; omega),
        if_neg (by rw [wide_le, byte]; simp only [BitVec.toNat_ofNat]; omega),
        if_neg (by rw [wide_le, byte]; simp only [BitVec.toNat_ofNat]; omega)]
    · have wide : ((UInt8.ofNat char.toNat).toBitVec.setWidth 32).toNat = char.toNat := by
        rw [BitVec.toNat_setWidth_of_le (by decide), byte]
      rw [latinByte_small (by omega), wide, if_pos (by omega)]
  · split
    · have lead : (UInt8.ofNat (char.toNat / 64 % 0x20 + 0xc0)).toBitVec.toNat = 0xc0 + char.toNat / 64 := by
        rw [ofNat_toNat (by omega)]
        omega
      have next : (UInt8.ofNat (char.toNat % 0x40 + 0x80)).toBitVec.toNat = 0x80 + char.toNat % 64 := by
        rw [ofNat_toNat (by omega)]
        omega
      obtain ⟨c, first, same⟩ := firstLatin_two lead next (by omega) rest
      refine ⟨c, first, ?_⟩
      by_cases small : char.toNat < 256
      · rw [latinByte_small (by omega), same, if_pos small]
      · rw [latinByte_large (by omega), if_neg small]
    · rw [if_neg (show ¬ char.toNat < 256 by omega)]
      split
      · have lead : (UInt8.ofNat (char.toNat / 4096 % 0x10 + 0xe0)).toBitVec.toNat = 0xe0 + char.toNat / 4096 := by
          rw [ofNat_toNat (by omega)]
          omega
        obtain ⟨c, first, large⟩ := @firstLatin_three _ (UInt8.ofNat (char.toNat / 64 % 0x40 + 0x80)).toBitVec
          (UInt8.ofNat (char.toNat % 0x40 + 0x80)).toBitVec (by rw [lead]; omega) (by rw [lead]; omega) rest
        exact ⟨c, first, latinByte_large large⟩
      · have lead : (UInt8.ofNat (char.toNat / 262144 % 0x08 + 0xf0)).toBitVec.toNat = 0xf0 + char.toNat / 262144 := by
          rw [ofNat_toNat (by omega)]
          omega
        have next : (UInt8.ofNat (char.toNat / 4096 % 0x40 + 0x80)).toBitVec.toNat = 0x80 + char.toNat / 4096 % 64 := by
          rw [ofNat_toNat (by omega)]
          omega
        obtain ⟨c, first, large⟩ := @firstLatin_four _ _ (UInt8.ofNat (char.toNat / 64 % 0x40 + 0x80)).toBitVec
          (UInt8.ofNat (char.toNat % 0x40 + 0x80)).toBitVec _ lead next (by omega) (by omega) rest
        exact ⟨c, first, latinByte_large large⟩

/-- UTF-8 comes out character by character. -/
theorem latinOfUtf8_chars (chars : List Char) : latinOfUtf8 (utf8Of chars) = chars.map charByte := by
  induction chars with
  | nil =>
    show latinOfUtf8 [] = []
    rw [latinOfUtf8]
  | cons char chars ih =>
    obtain ⟨c, first, byte⟩ := firstLatin_char char (utf8Of chars)
    have split : utf8Of (char :: chars) = (String.utf8EncodeChar char).map (·.toBitVec) ++ utf8Of chars := List.flatMap_cons
    rw [split]
    cases bytes : (String.utf8EncodeChar char).map (·.toBitVec) with
    | nil => exact absurd (List.map_eq_nil_iff.mp bytes) String.utf8EncodeChar_ne_nil
    | cons lead others =>
      rw [bytes, List.cons_append] at first
      rw [List.cons_append, latinOfUtf8, first, ih, byte, List.map_cons]

theorem charByte_latin (byte : Byte) : charByte (Char.ofNat byte.toNat) = byte := by
  revert byte
  decide

theorem latinOfUtf8_latin (bytes : List Byte) : latinOfUtf8 (utf8Of (latinChars bytes)) = bytes := by
  rw [latinOfUtf8_chars, latinChars, List.map_map]
  have same : charByte ∘ (fun byte : Byte => Char.ofNat byte.toNat) = id := funext charByte_latin
  rw [same, List.map_id]

end Characters

section Memory

variable {b newb : PlainBuffer} {bytes out : List Byte} {mark : Option Byte} {garbage : Nat → Byte}

theorem Filled.memory_room (filled : Filled b bytes mark) (room : bytes.length < b.size.toNat) :
    ∃ memory, b.data = some memory ∧ memory.size = b.size ∧ Begins memory.cells bytes mark := by
  rcases filled.memory with ⟨-, empty⟩ | ⟨memory, data, same, -, begins⟩
  · rw [empty] at room
    exact absurd room (Nat.not_lt_zero _)
  · exact ⟨memory, data, same, begins⟩

theorem readByte_filled (filled : Filled b bytes mark) {s : Nat} {byte : Byte} (here : bytes[s]? = some byte) :
    b.readByte garbage s = .ok byte := by
  obtain ⟨inside, value⟩ := List.getElem?_eq_some_iff.mp here
  have room := filled.room
  rcases filled.memory with ⟨-, empty⟩ | ⟨memory, data, same, -, begins⟩
  · rw [empty] at room
    exact absurd (inside.trans_le room) (Nat.not_lt_zero _)
  · have size : memory.size.toNat = b.size.toNat := by rw [same]
    have cell := begins s
    rw [if_neg (by omega), here] at cell
    unfold PlainBuffer.readByte
    rw [fetch_held data (by omega)]
    simp only [cell, Option.getD_some]

theorem push_filled (filled : Filled newb out none) (room : out.length < newb.size.toNat) (value : Byte) :
    ∃ next, newb.push value = .ok next ∧ Filled next (out ++ [value]) none ∧ next.size = newb.size := by
  obtain ⟨memory, data, same, begins⟩ := filled.memory_room room
  have used := filled.used
  have limit := newb.size.isLt
  have size : memory.size.toNat = newb.size.toNat := by rw [same]
  have written := @write_held newb newb.used memory data [value] (by
    rw [List.length_singleton]
    omega)
  unfold PlainBuffer.push
  rw [written]
  refine ⟨_, rfl, ?_, rfl⟩
  have behind : (newb.used + 1#64).toNat = out.length + 1 := by
    rw [BitVec.toNat_add, BitVec.toNat_one (by decide)]
    omega
  have appended := begins_append begins [value]
  rw [← used] at appended
  refine { used := ?_, room := ?_, marked := fun some => absurd rfl some, memory := .inr ⟨_, rfl, same, ?_, appended⟩ }
  · rw [List.length_append]
    exact behind
  · rw [List.length_append]
    exact room
  · intro empty
    rw [show newb.size = 0#64 from empty] at room
    exact Nat.not_lt_zero _ room

theorem pushAll_filled (filled : Filled newb out none) {values : List Byte}
    (room : out.length + values.length ≤ newb.size.toNat) :
    ∃ next, newb.pushAll values = .ok next ∧ Filled next (out ++ values) none ∧ next.size = newb.size := by
  induction values generalizing newb out with
  | nil =>
    rw [List.append_nil]
    exact ⟨newb, rfl, filled, rfl⟩
  | cons value values ih =>
    rw [List.length_cons] at room
    obtain ⟨middle, pushed, filled', size⟩ := push_filled filled (by omega) value
    obtain ⟨next, others, filled'', size'⟩ := ih filled' (by
      rw [List.length_append, List.length_singleton, size]
      omega)
    refine ⟨next, by rw [PlainBuffer.pushAll, pushed]; exact others, ?_, size'.trans size⟩
    rw [List.append_assoc, List.singleton_append] at filled''
    exact filled''

/-- A buffer that ends with its zero byte. -/
structure Fitted (b : PlainBuffer) (bytes : List Byte) : Prop where
  filled : Filled b bytes (some 0#8)
  size : b.size.toNat = bytes.length + 1

theorem shrink_filled (filled : Filled newb out none) (room : out.length < newb.size.toNat) :
    ∃ last, newb.shrink = .ok last ∧ Fitted last out := by
  obtain ⟨memory, data, same, begins⟩ := filled.memory_room room
  have used := filled.used
  have limit := newb.size.isLt
  have size : memory.size.toNat = newb.size.toNat := by rw [same]
  have written := @write_held newb newb.used memory data [0#8] (by
    rw [List.length_singleton]
    omega)
  have marked := begins_mark begins 0#8
  rw [← used] at marked
  have behind : (newb.used + 1#64).toNat = out.length + 1 := by
    rw [BitVec.toNat_add, BitVec.toNat_one (by decide)]
    omega
  have proper : newb.used + 1#64 ≠ 0#64 := by
    intro zero
    rw [zero] at behind
    cases behind
  unfold PlainBuffer.shrink
  rw [written]
  by_cases larger : (newb.used + 1#64).ult newb.size = true
  · refine ⟨_, congrArg Except.ok (if_pos larger), { filled := ?_, size := behind }⟩
    refine { used := used, room := ?_, marked := ?_, memory := .inr ⟨_, rfl, realloc_size _ _, proper, ?_⟩ }
    · exact (Nat.le_succ _).trans_eq behind.symm
    · intro _
      exact (Nat.lt_succ_self _).trans_eq behind.symm
    · exact begins_below marked (show out.length ≤ memory.size.toNat by omega)
        fun _ => show out.length < memory.size.toNat by omega
  · refine ⟨_, congrArg Except.ok (if_neg larger), { filled := ?_, size := ?_ }⟩
    · refine { used := used, room := room.le, marked := fun _ => room, memory := .inr ⟨_, rfl, same, ?_, marked⟩ }
      intro empty
      rw [show newb.size = 0#64 from empty] at room
      exact Nat.not_lt_zero _ room
    · rw [BitVec.ult, decide_eq_true_eq, behind] at larger
      show newb.size.toNat = _
      omega

end Memory

section Loops

variable {b newb : PlainBuffer} {bytes out : List Byte} {mark : Option Byte} {garbage : Nat → Byte}

theorem startPos_filled (filled : Filled b bytes mark) (short : bytes.length < 2 ^ 31) : b.startPos = bytes.length := by
  have used := filled.used
  have narrow : (b.used.setWidth 32).toNat = bytes.length := by
    rw [BitVec.toNat_setWidth, used]
    omega
  unfold PlainBuffer.startPos
  rw [BitVec.toInt_eq_toNat_of_lt (by omega), narrow]

theorem utf8Of_latin_cons (byte : Byte) (todo : List Byte) :
    utf8Of (latinChars (byte :: todo)) = PlainBuffer.utf8Bytes (byte.setWidth 32) ++ utf8Of (latinChars todo) := by
  rw [utf8Bytes_byte]
  exact List.flatMap_cons

theorem utf8Bytes_short : ∀ byte : Byte, (PlainBuffer.utf8Bytes (byte.setWidth 32)).length ≤ 2 := by
  decide

theorem utf8Of_latin_length (bytes : List Byte) : (utf8Of (latinChars bytes)).length ≤ 2 * bytes.length := by
  induction bytes with
  | nil => exact Nat.le_refl 0
  | cons byte bytes ih =>
    have two := utf8Bytes_short byte
    rw [utf8Of_latin_cons, List.length_append, List.length_cons]
    omega

theorem utf8_loop (filled : Filled b bytes mark) {done todo : List Byte} (split : bytes = done ++ todo)
    (filled' : Filled newb out none) (room : out.length + 2 * todo.length < newb.size.toNat) {turns : Nat}
    (enough : todo.length < turns) :
    ∃ last, loop (PlainBuffer.utf8Turn garbage b) turns (newb, done.length, (todo.length : Int)) = some (.ok last) ∧
      Fitted last (out ++ utf8Of (latinChars todo)) := by
  induction todo generalizing newb out done turns with
  | nil =>
    obtain ⟨turns, rfl⟩ : ∃ rest, turns = rest + 1 := ⟨turns - 1, by omega⟩
    obtain ⟨last, ended, fitted⟩ := shrink_filled filled' (by simpa using room)
    refine ⟨last, ?_, ?_⟩
    · have turn : PlainBuffer.utf8Turn garbage b (newb, done.length, (([] : List Byte).length : Int)) = .done newb.shrink := by
        unfold PlainBuffer.utf8Turn
        exact if_neg (Int.lt_irrefl 0)
      rw [loop_done turn, ended]
    · rw [show utf8Of (latinChars []) = [] from rfl, List.append_nil]
      exact fitted
  | cons byte todo ih =>
    obtain ⟨turns, rfl⟩ : ∃ rest, turns = rest + 1 := ⟨turns - 1, by omega⟩
    rw [List.length_cons] at room enough
    have here : bytes[done.length]? = some byte := by
      rw [split, List.getElem?_append_right (Nat.le_refl _), Nat.sub_self]
      rfl
    have two := utf8Bytes_short byte
    obtain ⟨next, pushed, filled'', size⟩ :=
      @pushAll_filled _ _ filled' (PlainBuffer.utf8Bytes (byte.setWidth 32)) (by omega)
    have turn : PlainBuffer.utf8Turn garbage b (newb, done.length, ((byte :: todo).length : Int)) =
        .again (next, (done ++ [byte]).length, (todo.length : Int)) := by
      have positive : 0 < ((byte :: todo).length : Int) := by
        rw [List.length_cons]
        omega
      have left : ((byte :: todo).length : Int) - 1 = todo.length := by
        rw [List.length_cons]
        omega
      unfold PlainBuffer.utf8Turn
      dsimp only
      rw [if_pos positive, readByte_filled filled here]
      simp only [pushed, left, List.length_append, List.length_singleton]
    obtain ⟨last, ended, fitted⟩ := @ih _ _ (done ++ [byte]) (by rw [split]; simp) filled'' (by
      rw [List.length_append, size]
      omega) turns (by omega)
    refine ⟨last, (loop_again turn turns).trans ended, ?_⟩
    rw [utf8Of_latin_cons, ← List.append_assoc]
    exact fitted

theorem latinChar_filled (filled : Filled b bytes mark) {done todo : List Byte} {byte : Byte}
    (split : bytes = done ++ byte :: todo) :
    ∃ count, b.latinChar garbage done.length ((byte :: todo).length : Int) =
        .ok ((firstLatin (byte :: todo)).1, count) ∧
      (firstLatin (byte :: todo)).2 = (byte :: todo).drop count := by
  have at_index : ∀ index value, (byte :: todo)[index]? = some value →
      b.readByte garbage (done.length + index) = .ok value := by
    intro index value here
    apply readByte_filled filled
    rw [split, List.getElem?_append_right (Nat.le_add_right _ _), Nat.add_sub_cancel_left]
    exact here
  have first := at_index 0 byte rfl
  rw [Nat.add_zero] at first
  unfold PlainBuffer.latinChar firstLatin
  rw [first]
  simp only [Except.bind]
  split
  · rcases todo with _ | ⟨s1, _ | ⟨s2, _ | ⟨s3, rest⟩⟩⟩
    · exact ⟨4, if_neg (by simp), rfl⟩
    · exact ⟨4, if_neg (by simp), rfl⟩
    · exact ⟨4, if_neg (by simp), rfl⟩
    · refine ⟨4, ?_, rfl⟩
      rw [if_pos (by simp only [List.length_cons]; omega), at_index 1 s1 rfl, at_index 2 s2 rfl, at_index 3 s3 rfl]
      rfl
  · split
    · rcases todo with _ | ⟨s1, _ | ⟨s2, rest⟩⟩
      · exact ⟨3, if_neg (by simp), rfl⟩
      · exact ⟨3, if_neg (by simp), rfl⟩
      · refine ⟨3, ?_, rfl⟩
        rw [if_pos (by simp only [List.length_cons]; omega), at_index 1 s1 rfl, at_index 2 s2 rfl]
        rfl
    · split
      · rcases todo with _ | ⟨s1, rest⟩
        · exact ⟨2, if_neg (by simp), rfl⟩
        · refine ⟨2, ?_, rfl⟩
          rw [if_pos (by simp only [List.length_cons]; omega), at_index 1 s1 rfl]
          rfl
      · exact ⟨1, rfl, rfl⟩

theorem latin_loop (filled : Filled b bytes mark) {done todo : List Byte} (split : bytes = done ++ todo)
    (filled' : Filled newb out none) (room : out.length + todo.length < newb.size.toNat) {turns : Nat}
    (enough : todo.length < turns) {pos : Int} (behind : pos = todo.length ∨ todo = [] ∧ pos ≤ 0) {s : Nat}
    (here : todo = [] ∨ s = done.length) :
    ∃ last, loop (PlainBuffer.latinTurn garbage b) turns (newb, s, pos) = some (.ok last) ∧
      Fitted last (out ++ latinOfUtf8 todo) := by
  induction bound : todo.length using Nat.strong_induction_on generalizing newb out done todo turns pos s with
  | _ length ih =>
    subst bound
    obtain ⟨turns, rfl⟩ : ∃ rest, turns = rest + 1 := ⟨turns - 1, by omega⟩
    cases todo with
    | nil =>
      have stop : ¬ 0 < pos := by
        rcases behind with same | ⟨-, low⟩
        · rw [same]
          exact Int.lt_irrefl 0
        · omega
      obtain ⟨last, ended, fitted⟩ := shrink_filled filled' (by simpa using room)
      refine ⟨last, ?_, ?_⟩
      · have turn : PlainBuffer.latinTurn garbage b (newb, s, pos) = .done newb.shrink := by
          unfold PlainBuffer.latinTurn
          exact if_neg stop
        rw [loop_done turn, ended]
      · rw [show latinOfUtf8 [] = [] by rw [latinOfUtf8], List.append_nil]
        exact fitted
    | cons byte todo =>
      rw [List.length_cons] at room enough
      obtain rfl : pos = ((byte :: todo).length : Int) := behind.resolve_right fun both => List.cons_ne_nil _ _ both.1
      obtain rfl : s = done.length := here.resolve_left (List.cons_ne_nil _ _)
      obtain ⟨count, read, rest⟩ := @latinChar_filled b bytes mark garbage filled done todo byte split
      obtain ⟨next, pushed, filled'', size⟩ := push_filled filled' (by omega)
        (PlainBuffer.latinByte (firstLatin (byte :: todo)).1)
      have positive : 0 < ((byte :: todo).length : Int) := by
        rw [List.length_cons]
        omega
      have turn : PlainBuffer.latinTurn garbage b (newb, done.length, ((byte :: todo).length : Int)) =
          .again (next, done.length + count, ((byte :: todo).length : Int) - count) := by
        unfold PlainBuffer.latinTurn
        dsimp only
        rw [if_pos positive, read]
        simp only [pushed]
      have shorter := firstLatin_shorter byte todo
      have left : (firstLatin (byte :: todo)).2.length = (byte :: todo).length - count := by
        rw [rest, List.length_drop]
      rw [List.length_cons] at shorter left
      -- a character that is cut off ends the data, wherever `pos` gets to
      have behind' : ((byte :: todo).length : Int) - count = (firstLatin (byte :: todo)).2.length ∨
          (firstLatin (byte :: todo)).2 = [] ∧ ((byte :: todo).length : Int) - count ≤ 0 := by
        by_cases whole : count ≤ todo.length + 1
        · left
          rw [left, List.length_cons]
          omega
        · right
          rw [List.length_cons]
          exact ⟨List.eq_nil_of_length_eq_zero (by omega), by omega⟩
      have here' : (firstLatin (byte :: todo)).2 = [] ∨ done.length + count = (done ++ (byte :: todo).take count).length := by
        by_cases whole : count ≤ todo.length + 1
        · right
          rw [List.length_append, List.length_take, List.length_cons]
          omega
        · left
          exact List.eq_nil_of_length_eq_zero (by omega)
      obtain ⟨last, ended, fitted⟩ := @ih _ shorter next _ (done ++ (byte :: todo).take count) (firstLatin (byte :: todo)).2
        (by rw [rest, List.append_assoc, List.take_append_drop]; exact split) filled''
        (by
          rw [List.length_append, List.length_singleton, size]
          omega) turns (by omega) _ behind' _ here' rfl
      refine ⟨last, (loop_again turn turns).trans ended, ?_⟩
      rw [latinOfUtf8]
      rw [List.append_assoc, List.singleton_append] at fitted
      exact fitted

theorem utf8_converts (filled : Filled b bytes mark) (short : bytes.length < 2 ^ 31) {turns : Nat}
    (enough : bytes.length < turns) :
    ∃ newb, b.bufferToBufferUtf8 garbage turns = some (.ok newb) ∧ Fitted newb (utf8Of (latinChars bytes)) := by
  have used := filled.used
  have size : (b.used * 4#64 + 1#64).toNat = 4 * bytes.length + 1 := by
    rw [BitVec.toNat_add, BitVec.toNat_mul, used, BitVec.toNat_one (by decide), BitVec.toNat_ofNat]
    omega
  unfold PlainBuffer.bufferToBufferUtf8
  rw [startPos_filled filled short]
  obtain ⟨newb, ended, fitted⟩ := @utf8_loop b _ bytes [] mark garbage filled [] bytes rfl
    (filled_new (b.used * 4#64 + 1#64)) (by
      show 0 + 2 * bytes.length < (b.used * 4#64 + 1#64).toNat
      omega) turns enough
  exact ⟨newb, ended, fitted⟩

theorem latin_converts (filled : Filled b bytes mark) (short : bytes.length < 2 ^ 31) {turns : Nat}
    (enough : bytes.length < turns) :
    ∃ newb, b.bufferUtf8ToBuffer garbage turns = some (.ok newb) ∧ Fitted newb (latinOfUtf8 bytes) := by
  have used := filled.used
  have size : (b.used + 1#64).toNat = bytes.length + 1 := by
    rw [BitVec.toNat_add, used, BitVec.toNat_one (by decide)]
    omega
  unfold PlainBuffer.bufferUtf8ToBuffer
  rw [startPos_filled filled short]
  obtain ⟨newb, ended, fitted⟩ := @latin_loop b _ bytes [] mark garbage filled [] bytes rfl
    (filled_new (b.used + 1#64)) (by
      show 0 + bytes.length < (b.used + 1#64).toNat
      omega) turns enough bytes.length (.inl rfl) 0 (.inr rfl)
  exact ⟨newb, ended, fitted⟩

end Loops

/-- Both conversions stay inside of their buffers, whatever the bytes are. The first gives the UTF-8 of the standard, which
    the second takes back; of any UTF-8 the second gives each character as its byte, or as a question mark. -/
theorem utf8_conversions {b : PlainBuffer} {bytes : List Byte} {mark : Option Byte} (filled : Filled b bytes mark)
    (short : bytes.length < 2 ^ 30) (garbage : Nat → Byte) {turns : Nat} (enough : 2 * bytes.length < turns) :
    (∃ utf8, b.bufferToBufferUtf8 garbage turns = some (.ok utf8) ∧ Fitted utf8 (utf8Of (latinChars bytes)) ∧
      ∃ back, utf8.bufferUtf8ToBuffer garbage turns = some (.ok back) ∧ Fitted back bytes) ∧
    ∃ latin, b.bufferUtf8ToBuffer garbage turns = some (.ok latin) ∧ Fitted latin (latinOfUtf8 bytes) ∧
      ∀ chars, bytes = utf8Of chars → Fitted latin (chars.map charByte) := by
  have longer := utf8Of_latin_length bytes
  constructor
  · obtain ⟨utf8, converted, fitted⟩ := @utf8_converts b bytes mark garbage filled (by omega) turns (by omega)
    obtain ⟨back, returned, fitted'⟩ := @latin_converts utf8 _ _ garbage fitted.filled (by omega) turns (by omega)
    rw [latinOfUtf8_latin] at fitted'
    exact ⟨utf8, converted, fitted, back, returned, fitted'⟩
  · obtain ⟨latin, converted, fitted⟩ := @latin_converts b bytes mark garbage filled (by omega) turns (by omega)
    refine ⟨latin, converted, fitted, ?_⟩
    rintro chars rfl
    rw [← latinOfUtf8_chars]
    exact fitted

def cafe : DataObject := { bytes := [0x63#8, 0xe9#8], object := by decide }

theorem utf8_conversions_cafe :
    ∃ b utf8 back, (PlainBuffer.bufferNew 8#64).bufferAppendStringN cafe cafe.size = .ok b ∧
      b.bufferToBufferUtf8 (fun _ => 0#8) 5 = some (.ok utf8) ∧
      contentsOf utf8 = [some 0x63#8, some 0xc3#8, some 0xa9#8] ∧
      utf8.bufferUtf8ToBuffer (fun _ => 0#8) 5 = some (.ok back) ∧ contentsOf back = [some 0x63#8, some 0xe9#8] := by
  obtain ⟨b, appended, filled⟩ := append_string_n_filled (filled_new 8#64) (show SizesFit _ (.stringN cafe) by decide)
  rw [List.nil_append] at filled
  obtain ⟨⟨utf8, converted, fitted, back, returned, fitted'⟩, -⟩ :=
    @utf8_conversions b _ _ filled (by decide) (fun _ => 0#8) 5 (by decide)
  exact ⟨b, utf8, back, appended, converted, fitted.filled.contents, returned, fitted'.filled.contents⟩

end ZapeProof
