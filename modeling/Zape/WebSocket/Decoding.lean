import Zape.WebSocket.State
import Zape.WebSocket.Wire

/-! What the decoder does with each byte of a frame, from the first to the last. -/
namespace ZapeProof

open Machine Zig ZapeModel ZapeModel.WebSocketState

def lengthBytes : ParsingState → Nat
  | .stepShortLength => 2
  | .stepExtendedLength => 8
  | _ => 0

theorem lengthBytes_le (step : ParsingState) : lengthBytes step ≤ 8 := by
  cases step <;> decide

section LengthByte

variable {self : WebSocketState} {bytes : List Byte} (byte : Byte)

theorem length_shift (position : self.frame.lengthPos.toNat = bytes.length) :
    ∃ shift, mul (self.frame.lengthPos.setWidth 6) 8#6 = .ok shift ∧ shift.toNat = 8 * bytes.length := by
  have narrow := self.frame.lengthPos.isLt
  have small : (self.frame.lengthPos.setWidth 6).toNat = bytes.length := by
    rw [BitVec.toNat_setWidth, position, Nat.mod_eq_of_lt (by omega)]
  have eight : (8#6).toNat = 8 := rfl
  refine ⟨_, mul_ok (by rw [small, eight]; omega), ?_⟩
  rw [BitVec.toNat_mul, small, eight, Nat.mod_eq_of_lt (by omega), Nat.mul_comm]

theorem lengthByte_more (position : self.frame.lengthPos.toNat = bytes.length)
    (spelled : self.frame.length.toNat = littleEndian bytes)
    (more : bytes.length + 1 < lengthBytes self.step) :
    ∃ length lengthPos, self.lengthByte byte =
        .ok { self with frame := { self.frame with length, lengthPos } } ∧
      length.toNat = littleEndian (bytes ++ [byte]) ∧ lengthPos.toNat = bytes.length + 1 := by
  have limit := lengthBytes_le self.step
  obtain ⟨shift, multiplied, amount⟩ := length_shift position
  have one : (1#3).toNat = 1 := rfl
  have added : add self.frame.lengthPos 1#3 = .ok (self.frame.lengthPos + 1#3) := add_ok (by omega)
  refine ⟨_, self.frame.lengthPos + 1#3, ?_, or_shift_littleEndian byte (by omega) spelled, ?_⟩
  · cases step : self.step <;> rw [step] at more <;> simp only [lengthBytes] at more
    any_goals omega
    · have first : self.frame.lengthPos ≠ 1#3 := by
        intro h
        rw [h, one] at position
        omega
      simp [lengthByte, readLength, multiplied, amount, step, first, added, bind, Except.bind, pure, Except.pure]
    · have inner : self.frame.lengthPos ≠ 7#3 := by
        intro h
        have seven : (7#3).toNat = 7 := rfl
        rw [h, seven] at position
        omega
      simp [lengthByte, readLength, multiplied, amount, step, inner, added, bind, Except.bind, pure, Except.pure]
  · rw [BitVec.toNat_add, one, position, Nat.mod_eq_of_lt (by omega)]

section LastByte

variable {shift : BitVec 6} {word : BitVec 64}

theorem shortLength_last (step : self.step = .stepShortLength) (second : self.frame.lengthPos = 1#3)
    (multiplied : mul (self.frame.lengthPos.setWidth 6) 8#6 = .ok shift)
    (joined : self.frame.length ||| (byte.setWidth 64 <<< shift.toNat) = word)
    (bound : word.toNat < 2 ^ 16) :
    self.lengthByte byte = .ok { self with
      frame := { self.frame with length := (@byteSwap 2 (word.setWidth 16)).setWidth 64 }
      step := if self.masking then .stepKey else .stepData } := by
  have cast : intCast 16 word = .ok (word.setWidth 16) := intCast_ok bound
  simp [lengthByte, readLength, multiplied, joined, step, if_pos second, cast, bind, Except.bind, pure, Except.pure]

theorem extendedLength_last (step : self.step = .stepExtendedLength) (eighth : self.frame.lengthPos = 7#3)
    (multiplied : mul (self.frame.lengthPos.setWidth 6) 8#6 = .ok shift)
    (joined : self.frame.length ||| (byte.setWidth 64 <<< shift.toNat) = word) :
    self.lengthByte byte = .ok { self with
      frame := { self.frame with length := @byteSwap 8 word }
      step := if self.masking then .stepKey else .stepData } := by
  have cast : intCast 64 word = .ok word := by
    rw [intCast_ok word.isLt, BitVec.setWidth_eq]
  simp [lengthByte, readLength, multiplied, joined, step, if_pos eighth, cast, bind, Except.bind, pure, Except.pure]

end LastByte

theorem lengthByte_last (position : self.frame.lengthPos.toNat = bytes.length)
    (spelled : self.frame.length.toNat = littleEndian bytes)
    (last : bytes.length + 1 = lengthBytes self.step) :
    ∃ length, self.lengthByte byte =
        .ok { self with
          frame := { self.frame with length }
          step := if self.masking then .stepKey else .stepData } ∧
      length.toNat = bigEndian (bytes ++ [byte]) := by
  have limit := lengthBytes_le self.step
  obtain ⟨shift, multiplied, amount⟩ := length_shift position
  have read := or_shift_littleEndian byte (by omega) spelled
  have bound := littleEndian_lt (bytes ++ [byte])
  have count : (bytes ++ [byte]).length = lengthBytes self.step := by simpa using last
  rw [← read, count] at bound
  rw [← amount] at read bound
  cases step : self.step <;> rw [step] at last bound count <;> simp only [lengthBytes] at last bound count
  any_goals omega
  · have second : self.frame.lengthPos = 1#3 :=
      BitVec.eq_of_toNat_eq (by rw [position]; exact Nat.succ.inj last)
    refine ⟨_, shortLength_last byte step second multiplied rfl bound, ?_⟩
    have narrow := littleEndian_lt (bytes ++ [byte]).reverse
    rw [List.length_reverse, count] at narrow
    rw [BitVec.toNat_setWidth, byteSwap_littleEndian count]
    · exact Nat.mod_eq_of_lt (Nat.lt_trans narrow (by decide))
    · rw [BitVec.toNat_setWidth]
      exact (Nat.mod_eq_of_lt bound).trans read
  · have eighth : self.frame.lengthPos = 7#3 :=
      BitVec.eq_of_toNat_eq (by rw [position]; exact Nat.succ.inj last)
    exact ⟨_, extendedLength_last byte step eighth multiplied rfl, byteSwap_littleEndian count read⟩

end LengthByte

/-- What holds between the first byte of a frame and its payload. -/
structure InFrame (origin : WebSocketState) (header : Byte) (current : WebSocketState) : Prop where
  header : current.frame.header = header
  prevheader : current.frame.prevheader = origin.frame.prevheader
  client : current.client = origin.client
  items : current.buffer.items = []
  inkey : current.dataInkey = 0#2

/-- The second byte of the frame comes next. -/
structure AtLength (origin : WebSocketState) (header : Byte) (current : WebSocketState) : Prop
    extends InFrame origin header current where
  step : current.step = .stepLength
  length : current.frame.length = 0#64
  lengthPos : current.frame.lengthPos = 0#3
  key : current.cipher.key = origin.cipher.key
  pos : current.cipher.pos = 0#2

/-- The given bytes of an extended length have been read. -/
structure AtExtension (origin : WebSocketState) (header : Byte) (masked : Bool) (bytes : List Byte)
    (current : WebSocketState) : Prop extends InFrame origin header current where
  step : current.step = .stepShortLength ∨ current.step = .stepExtendedLength
  masking : current.masking = masked
  length : current.frame.length.toNat = littleEndian bytes
  lengthPos : current.frame.lengthPos.toNat = bytes.length
  key : current.cipher.key = origin.cipher.key
  pos : current.cipher.pos = 0#2

/-- The payload length is known; the key comes next when there is one. -/
structure LengthKnown (origin : WebSocketState) (header : Byte) (masked : Bool) (length : Nat)
    (current : WebSocketState) : Prop extends InFrame origin header current where
  step : current.step = if masked then .stepKey else .stepData
  masking : current.masking = masked
  length : current.frame.length.toNat = length
  key : current.cipher.key = origin.cipher.key
  pos : current.cipher.pos = 0#2

/-- The key byte at the given position comes next. -/
structure AtKey (origin : WebSocketState) (header : Byte) (length : Nat) (position : BitVec 2)
    (key : MaskingKey) (current : WebSocketState) : Prop extends InFrame origin header current where
  step : current.step = .stepKey
  length : current.frame.length.toNat = length
  pos : current.cipher.pos = position
  key : current.cipher.key = key

/-- The payload comes next, masked with the key. -/
structure AtData (origin : WebSocketState) (header : Byte) (key : MaskingKey) (length : Nat)
    (current : WebSocketState) : Prop extends InFrame origin header current where
  step : current.step = .stepData
  length : current.frame.length.toNat = length
  key : current.cipher.key = key

/-- Part of the payload is in the buffer; the key byte at `index` unmasks the next one. -/
structure Receiving (origin : WebSocketState) (header : Byte) (key : MaskingKey) (length : Nat)
    (index : BitVec 2) (received : List Byte) (current : WebSocketState) : Prop where
  header : current.frame.header = header
  prevheader : current.frame.prevheader = origin.frame.prevheader
  client : current.client = origin.client
  step : current.step = .stepData
  length : current.frame.length.toNat = length
  key : current.cipher.key = key
  inkey : current.dataInkey = index
  items : current.buffer.items = received

/-- The whole payload is in the buffer. -/
structure Completed (origin : WebSocketState) (header : Byte) (key : MaskingKey) (payload : List Byte)
    (current : WebSocketState) : Prop where
  header : current.frame.header = header
  prevheader : current.frame.prevheader = origin.frame.prevheader
  client : current.client = origin.client
  items : current.buffer.items = payload
  key : current.cipher.key = key

theorem mask_bits (masked : Bool) (low : Byte) (small : low &&& 0x80#8 = 0#8) :
    ((if masked then 0x80#8 else 0#8) ||| low) &&& 0x80#8 = (if masked then 0x80#8 else 0#8) ∧
      ((if masked then 0x80#8 else 0#8) ||| low) &&& 0x7f#8 = low := by
  revert low
  cases masked <;> decide

theorem short_length_bits {length : Nat} (small : length ≤ 125) : BitVec.ofNat 8 length &&& 0x80#8 = 0#8 := by
  have all : ∀ low : Byte, low.toNat < 128 → low &&& 0x80#8 = 0#8 := by decide
  exact all _ (by rw [BitVec.toNat_ofNat]; omega)

section Steps

variable [GrowthPolicy] {T : Type} {connectionType : WebSocketConnectionType}
  {callbacks : WebSocketCallbacks T} {origin self : WebSocketState} {context : T} {header byte : Byte}

theorem read_header (start : self.step = .stepStart) :
    ∃ next, processByte connectionType callbacks (self, context) byte = .ok ((next, context), []) ∧
      AtLength self byte next := by
  simp only [processByte, start]
  exact ⟨_, rfl, { header := rfl, prevheader := rfl, client := rfl, items := rfl, inkey := rfl, step := rfl,
                   length := rfl, lengthPos := rfl, key := rfl, pos := rfl }⟩

/-- Whatever the second byte says, an unmasked frame without a 7-bit length is taken for an empty one. -/
theorem AtLength.unmasked_empty (h : AtLength origin header self)
    (unmasked : byte &&& 0x80#8 = 0#8)
    (empty : byte &&& 0x7f#8 = 0#8 ∨ byte &&& 0x7f#8 = 126#8 ∨ byte &&& 0x7f#8 = 127#8) :
    ∃ last, processByte connectionType callbacks (self, context) byte =
        .ok (last.endMessage connectionType callbacks context) ∧
      Completed origin header origin.cipher.key [] last := by
  rcases empty with zero | short | long
  · simp only [processByte, secondByte, h.step, unmasked, zero]
    exact ⟨_, rfl, h.header, h.prevheader, h.client, h.items, h.key⟩
  · simp [processByte, secondByte, h.step, unmasked, short, h.length]
    exact ⟨_, rfl, h.header, h.prevheader, h.client, h.items, h.key⟩
  · simp [processByte, secondByte, h.step, unmasked, long, h.length]
    exact ⟨_, rfl, h.header, h.prevheader, h.client, h.items, h.key⟩

theorem AtLength.short (h : AtLength origin header self) (masked : Bool) (length : Nat)
    (bit : byte &&& 0x80#8 = if masked then 0x80#8 else 0#8) (low : byte &&& 0x7f#8 = BitVec.ofNat 8 length)
    (small : length ≤ 125) (nonempty : masked = true ∨ 0 < length) :
    ∃ next, processByte connectionType callbacks (self, context) byte = .ok ((next, context), []) ∧
      LengthKnown origin header masked length next := by
  have value : (BitVec.ofNat 8 length).toNat = length := by
    rw [BitVec.toNat_ofNat, Nat.mod_eq_of_lt (by omega)]
  have not126 : BitVec.ofNat 8 length ≠ 126#8 := by
    intro equal
    rw [equal, BitVec.toNat_ofNat] at value
    omega
  have not127 : BitVec.ofNat 8 length ≠ 127#8 := by
    intro equal
    rw [equal, BitVec.toNat_ofNat] at value
    omega
  have wide : ((BitVec.ofNat 8 length).setWidth 64).toNat = length := by
    rw [BitVec.toNat_setWidth, value, Nat.mod_eq_of_lt (by omega)]
  have zero : (BitVec.ofNat 8 length).setWidth 64 = 0#64 → length = 0 := by
    intro equal
    rw [equal] at wide
    exact wide.symm
  cases masked
  · have positive : 0 < length := by simpa using nonempty
    have counted : (BitVec.ofNat 8 length).setWidth 64 ≠ 0#64 := fun equal => by have := zero equal; omega
    simp only [Bool.false_eq_true, ite_false] at bit
    simp only [processByte, secondByte, h.step, bit, low, if_neg not126, if_neg not127, counted, ne_eq, not_true,
      decide_false, Bool.false_eq_true, ite_false, and_false]
    exact ⟨_, rfl, { h.toInFrame with step := rfl, masking := rfl, length := wide, key := h.key, pos := h.pos }⟩
  · simp only [ite_true] at bit
    simp only [processByte, secondByte, h.step, bit, low, if_neg not126, if_neg not127]
    exact ⟨_, rfl, { h.toInFrame with step := rfl, masking := rfl, length := wide, key := h.key, pos := h.pos }⟩

theorem AtLength.extended (h : AtLength origin header self) (bit : byte &&& 0x80#8 = 0x80#8) (step : ParsingState)
    (low : byte &&& 0x7f#8 = 126#8 ∧ step = .stepShortLength ∨
      byte &&& 0x7f#8 = 127#8 ∧ step = .stepExtendedLength) :
    ∃ next, processByte connectionType callbacks (self, context) byte = .ok ((next, context), []) ∧
      AtExtension origin header true [] next ∧ next.step = step := by
  have lengthZero : self.frame.length.toNat = littleEndian [] := by rw [h.length]; rfl
  have positionZero : self.frame.lengthPos.toNat = ([] : List Byte).length := by rw [h.lengthPos]; rfl
  rcases low with ⟨low, rfl⟩ | ⟨low, rfl⟩
  · simp only [processByte, secondByte, h.step, bit, low]
    refine ⟨_, rfl, ?_, rfl⟩
    exact { h.toInFrame with
      step := .inl rfl, masking := rfl, length := lengthZero, lengthPos := positionZero, key := h.key, pos := h.pos }
  · simp only [processByte, secondByte, h.step, bit, low]
    refine ⟨_, rfl, ?_, rfl⟩
    exact { h.toInFrame with
      step := .inr rfl, masking := rfl, length := lengthZero, lengthPos := positionZero, key := h.key, pos := h.pos }

theorem extension_byte (step : self.step = .stepShortLength ∨ self.step = .stepExtendedLength)
    {next : WebSocketState} (read : self.lengthByte byte = .ok next) :
    processByte connectionType callbacks (self, context) byte = .ok ((next, context), []) := by
  rcases step with step | step <;> simp only [processByte, step, read]

theorem AtExtension.run {masked : Bool} {bytes : List Byte} (h : AtExtension origin header masked bytes self)
    (rest : List Byte) (total : bytes.length + rest.length = lengthBytes self.step) (nonempty : rest ≠ []) :
    ∃ next, run (processByte connectionType callbacks) (self, context) rest = .ok ((next, context), []) ∧
      LengthKnown origin header masked (bigEndian (bytes ++ rest)) next := by
  induction rest generalizing self bytes with
  | nil => exact absurd rfl nonempty
  | cons byte rest ih =>
    rw [List.length_cons] at total
    by_cases final : rest = []
    · subst final
      obtain ⟨length, read, value⟩ := lengthByte_last byte h.lengthPos h.length total
      refine ⟨_, (run_singleton _ _ _).trans (extension_byte h.step read), ?_⟩
      exact { header := h.header, prevheader := h.prevheader, client := h.client, items := h.items,
              inkey := h.inkey, step := by simp only [h.masking], masking := h.masking, length := value,
              key := h.key, pos := h.pos }
    · have more : bytes.length + 1 < lengthBytes self.step := by
        have := List.length_pos_of_ne_nil final
        omega
      obtain ⟨length, lengthPos, read, value, position⟩ := lengthByte_more byte h.lengthPos h.length more
      have advanced : AtExtension origin header masked (bytes ++ [byte])
          { self with frame := { self.frame with length, lengthPos } } :=
        { header := h.header, prevheader := h.prevheader, client := h.client, items := h.items,
          inkey := h.inkey, step := h.step, masking := h.masking, length := value,
          lengthPos := by rw [position, List.length_append, List.length_singleton], key := h.key, pos := h.pos }
      obtain ⟨next, reads, known⟩ := ih advanced
        (by rw [List.length_append, List.length_singleton, Nat.add_assoc, Nat.add_comm 1]; exact total) final
      refine ⟨next, run_ok_cons (extension_byte h.step read) reads, ?_⟩
      rwa [List.append_assoc, List.singleton_append] at known

theorem AtKey.more {length : Nat} {position : BitVec 2} {key : MaskingKey}
    (h : AtKey origin header length position key self) (inner : position.toNat < 3) :
    ∃ next, processByte connectionType callbacks (self, context) byte = .ok ((next, context), []) ∧
      AtKey origin header length (position + 1#2) (fun i => if i = position then byte else key i) next := by
  have one : (1#2).toNat = 1 := rfl
  have advanced : add position 1#2 = .ok (position + 1#2) := add_ok (by omega)
  have notLast : position ≠ 3#2 := by
    intro equal
    rw [equal, BitVec.toNat_ofNat] at inner
    omega
  simp only [processByte, h.step, h.pos, h.key, if_neg notLast, advanced]
  exact ⟨_, rfl, { h.toInFrame with step := rfl, length := h.length, pos := rfl, key := rfl }⟩

theorem AtKey.last {length : Nat} {key : MaskingKey} (h : AtKey origin header length 3#2 key self) :
    ∃ next : WebSocketState, processByte connectionType callbacks (self, context) byte =
        .ok (if length = 0 then next.endMessage connectionType callbacks context else ((next, context), [])) ∧
      AtData origin header (fun i => if i = 3#2 then byte else key i) length next := by
  have empty : (self.frame.length = 0#64) = (length = 0) := by
    rw [← h.length, ← BitVec.toNat_inj]
    rfl
  simp only [processByte, h.step, h.pos, h.key, ite_true, empty, ← apply_ite]
  exact ⟨_, rfl, { h.toInFrame with step := rfl, length := h.length, key := rfl }⟩

theorem LengthKnown.read_key {length : Nat} (h : LengthKnown origin header true length self) (key : MaskingKey) :
    ∃ next : WebSocketState, run (processByte connectionType callbacks) (self, context) key.bytes =
        .ok (if length = 0 then next.endMessage connectionType callbacks context else ((next, context), [])) ∧
      AtData origin header key length next := by
  have keyNext : AtKey origin header length 0#2 origin.cipher.key self :=
    { h.toInFrame with step := h.step, length := h.length, pos := h.pos, key := h.key }
  obtain ⟨first, read0, keyNext⟩ := keyNext.more (by decide)
  obtain ⟨second, read1, keyNext⟩ := keyNext.more (by decide)
  obtain ⟨third, read2, keyNext⟩ := keyNext.more (by decide)
  obtain ⟨last, read3, data⟩ := keyNext.last
  have spelled : (fun i => if i = 3#2 then key 3#2 else if i = 2#2 then key 2#2 else
      if i = 1#2 then key 1#2 else if i = 0#2 then key 0#2 else origin.cipher.key i) = key := by
    funext i
    have cases : i = 0#2 ∨ i = 1#2 ∨ i = 2#2 ∨ i = 3#2 := by
      revert i
      decide
    rcases cases with rfl | rfl | rfl | rfl <;> rfl
  refine ⟨last, ?_, ?_⟩
  · exact run_ok_cons read0 (run_ok_cons read1 (run_ok_cons read2 ((run_singleton _ _ _).trans read3)))
  · rw [← spelled]
    exact data

theorem Receiving.next {key : MaskingKey} {length : Nat} {index : BitVec 2} {received : List Byte}
    (h : Receiving origin header key length index received self) :
    ∃ next : WebSocketState, processByte connectionType callbacks (self, context) byte =
        .ok (if received.length + 1 = length then next.endMessage connectionType callbacks context
          else (({ next with dataInkey := index + 1#2 }, context), [])) ∧
      Receiving origin header key length index (received ++ [byte ^^^ key index]) next := by
  have items (capacity : Nat) : (if self.buffer.capacity = 0 then self.buffer.ensureTotalCapacity capacity
      else self.buffer).items = received := by
    split <;> simp [h.items]
  simp only [processByte, h.step, h.key, h.inkey, ArrayList.append_items, items, List.length_append,
    List.length_singleton, h.length, ← apply_ite]
  refine ⟨_, rfl, ?_⟩
  exact { header := h.header, prevheader := h.prevheader, client := h.client, step := rfl, length := h.length,
          key := h.key, inkey := rfl, items := by rw [ArrayList.append_items, items] }

theorem Receiving.run {key : MaskingKey} {length : Nat} {index : BitVec 2} {received : List Byte}
    (h : Receiving origin header key length index received self) (raw : List Byte)
    (total : received.length + raw.length = length) (nonempty : raw ≠ []) :
    ∃ last : WebSocketState, run (processByte connectionType callbacks) (self, context) raw =
        .ok (last.endMessage connectionType callbacks context) ∧
      Completed origin header key (received ++ key.mask index raw) last := by
  induction raw generalizing self index received with
  | nil => exact absurd rfl nonempty
  | cons byte raw ih =>
    rw [List.length_cons] at total
    obtain ⟨next, read, receiving⟩ := h.next
    by_cases final : raw = []
    · subst final
      have complete : received.length + 1 = length := total
      rw [if_pos complete] at read
      refine ⟨next, (run_singleton _ _ _).trans read, ?_⟩
      exact { header := receiving.header, prevheader := receiving.prevheader, client := receiving.client,
              items := receiving.items, key := receiving.key }
    · have more : received.length + 1 ≠ length := by
        have := List.length_pos_of_ne_nil final
        omega
      rw [if_neg more] at read
      have advanced : Receiving origin header key length (index + 1#2) (received ++ [byte ^^^ key index])
          { next with dataInkey := index + 1#2 } :=
        { header := receiving.header, prevheader := receiving.prevheader, client := receiving.client,
          step := receiving.step, length := receiving.length, key := receiving.key, inkey := rfl,
          items := receiving.items }
      obtain ⟨last, reads, completed⟩ := ih advanced
        (by rw [List.length_append, List.length_singleton, Nat.add_assoc, Nat.add_comm 1]; exact total) final
      refine ⟨last, run_ok_cons read reads, ?_⟩
      rwa [List.append_assoc, List.singleton_append] at completed

theorem AtData.run {key : MaskingKey} {raw : List Byte} (h : AtData origin header key raw.length self)
    (nonempty : raw ≠ []) :
    ∃ last : WebSocketState, run (processByte connectionType callbacks) (self, context) raw =
        .ok (last.endMessage connectionType callbacks context) ∧
      Completed origin header key (key.mask 0#2 raw) last := by
  have receiving : Receiving origin header key raw.length 0#2 [] self :=
    { header := h.header, prevheader := h.prevheader, client := h.client, step := h.step, length := h.length,
      key := h.key, inkey := h.inkey, items := h.items }
  exact receiving.run raw (by simp) nonempty

theorem AtLength.read_extended (h : AtLength origin header self) {low : Byte} {count length : Nat}
    {step : ParsingState} (form : low = 126#8 ∧ step = .stepShortLength ∨ low = 127#8 ∧ step = .stepExtendedLength)
    (width : count = lengthBytes step) (fits : length < 256 ^ count) :
    ∃ next, run (processByte connectionType callbacks) (self, context)
        ((0x80#8 ||| low) :: bigEndianBytes count length) = .ok ((next, context), []) ∧
      LengthKnown origin header true length next := by
  have bits : (0x80#8 ||| low) &&& 0x80#8 = 0x80#8 ∧ (0x80#8 ||| low) &&& 0x7f#8 = low := by
    rcases form with ⟨rfl, -⟩ | ⟨rfl, -⟩ <;> decide
  rw [← bits.2] at form
  obtain ⟨next, read, extension, reached⟩ := h.extended bits.1 step form
  have total : ([] : List Byte).length + (bigEndianBytes count length).length = lengthBytes next.step := by
    rw [reached, bigEndianBytes_length, width, List.length_nil, Nat.zero_add]
  have nonempty : bigEndianBytes count length ≠ [] := by
    apply List.ne_nil_of_length_pos
    rw [bigEndianBytes_length, width]
    rcases form with ⟨-, rfl⟩ | ⟨-, rfl⟩ <;> decide
  obtain ⟨last, reads, known⟩ := extension.run _ total nonempty
  rw [List.nil_append, bigEndian_bigEndianBytes fits] at known
  exact ⟨last, run_ok_cons read reads, known⟩

theorem AtLength.read_length (h : AtLength origin header self) (frame : Frame)
    (readable : frame.masked = true ∨ frame.form = .short ∧ frame.payload ≠ []) :
    ∃ next, run (processByte connectionType callbacks) (self, context) frame.lengthField =
        .ok ((next, context), []) ∧ LengthKnown origin header frame.masked frame.payload.length next := by
  have fits := frame.fits
  cases form : frame.form <;> rw [form] at fits readable <;> simp only [Frame.lengthField, form, Frame.maskBit]
  case short =>
    obtain ⟨bit, low⟩ := mask_bits frame.masked _ (short_length_bits fits)
    have nonempty : frame.masked = true ∨ 0 < frame.payload.length := by
      rcases readable with masked | ⟨-, nonempty⟩
      · exact .inl masked
      · exact .inr (List.length_pos_of_ne_nil nonempty)
    obtain ⟨next, read, known⟩ := h.short frame.masked _ bit low fits nonempty
    exact ⟨next, (run_singleton _ _ _).trans read, known⟩
  case extended16 =>
    have masked : frame.masked = true := by simpa using readable
    rw [masked]
    exact h.read_extended (.inl ⟨rfl, rfl⟩) rfl (Nat.lt_of_le_of_lt fits (by decide))
  case extended64 =>
    have masked : frame.masked = true := by simpa using readable
    rw [masked]
    exact h.read_extended (.inr ⟨rfl, rfl⟩) rfl (Nat.lt_of_le_of_lt fits (by decide))

/-- The key left in the decoder after a frame: an unmasked frame leaves the previous one. -/
def keyAfter (stale : MaskingKey) (frame : Frame) : MaskingKey := frame.maskingKey.getD stale

/-- What the decoder takes for the payload: an unmasked one is still combined with the key it holds. -/
def received (stale : MaskingKey) (frame : Frame) : List Byte :=
  match frame.maskingKey with
  | none => MaskingKey.mask stale 0#2 frame.payload
  | some _ => frame.payload

theorem read_masked (start : self.step = .stepStart) (frame : Frame) (key : MaskingKey)
    (masked : frame.maskingKey = some key) :
    ∃ last : WebSocketState, run (processByte connectionType callbacks) (self, context) frame.wire =
        .ok (last.endMessage connectionType callbacks context) ∧
      Completed self frame.headerByte key frame.payload last := by
  have isMasked : frame.masked = true := by rw [Frame.masked, masked]; rfl
  obtain ⟨first, readHeader, atLength⟩ := read_header start
  obtain ⟨second, readLength, known⟩ := atLength.read_length frame (.inl isMasked)
  rw [isMasked] at known
  obtain ⟨third, readKey, atData⟩ := known.read_key key
  have opening : run (processByte connectionType callbacks) (self, context)
      (frame.headerByte :: frame.lengthField) = .ok ((second, context), []) := run_ok_cons readHeader readLength
  rw [Frame.wire, Frame.body, masked]
  by_cases empty : frame.payload = []
  · rw [empty] at readKey atData ⊢
    rw [List.length_nil, if_pos rfl] at readKey
    refine ⟨third, ?_, ?_⟩
    · simp only [MaskingKey.mask, List.append_nil]
      exact run_ok_append opening readKey
    · exact { header := atData.header, prevheader := atData.prevheader, client := atData.client,
              items := atData.items, key := atData.key }
  · have positive := List.length_pos_of_ne_nil empty
    rw [if_neg (by omega)] at readKey
    rw [← MaskingKey.mask_length key 0#2] at atData positive
    obtain ⟨last, readData, completed⟩ := atData.run (List.ne_nil_of_length_pos positive)
    rw [MaskingKey.mask_mask] at completed
    exact ⟨last, run_ok_append opening (run_ok_append readKey readData), completed⟩

theorem read_unmasked_short (start : self.step = .stepStart) (frame : Frame)
    (unmasked : frame.maskingKey = none) (form : frame.form = .short) :
    ∃ last : WebSocketState, run (processByte connectionType callbacks) (self, context) frame.wire =
        .ok (last.endMessage connectionType callbacks context) ∧
      Completed self frame.headerByte self.cipher.key
        (MaskingKey.mask self.cipher.key 0#2 frame.payload) last := by
  have notMasked : frame.masked = false := by rw [Frame.masked, unmasked]; rfl
  obtain ⟨first, readHeader, atLength⟩ := read_header start
  rw [Frame.wire, Frame.body, unmasked]
  by_cases empty : frame.payload = []
  · have field : frame.lengthField = [0#8] := by
      simp [Frame.lengthField, form, Frame.maskBit, notMasked, empty]
    have unset : 0#8 &&& 0x80#8 = 0#8 := rfl
    obtain ⟨last, readLength, completed⟩ := atLength.unmasked_empty unset (.inl rfl)
    rw [empty, field]
    exact ⟨last, run_ok_cons readHeader ((run_singleton _ _ _).trans readLength), completed⟩
  · obtain ⟨second, readLength, known⟩ := atLength.read_length frame (.inr ⟨form, empty⟩)
    rw [notMasked] at known
    have atData : AtData self frame.headerByte self.cipher.key frame.payload.length second :=
      { known.toInFrame with step := known.step, length := known.length, key := known.key }
    obtain ⟨last, readData, completed⟩ := atData.run empty
    exact ⟨last, run_ok_append (run_ok_cons readHeader readLength) readData, completed⟩

/-- The decoder reads a frame whole when it is masked, or when its length fits seven bits. -/
theorem read_frame (start : self.step = .stepStart) (frame : Frame)
    (readable : frame.masked = true ∨ frame.form = .short) :
    ∃ last : WebSocketState, run (processByte connectionType callbacks) (self, context) frame.wire =
        .ok (last.endMessage connectionType callbacks context) ∧
      Completed self frame.headerByte (keyAfter self.cipher.key frame) (received self.cipher.key frame) last := by
  unfold keyAfter received
  cases masking : frame.maskingKey with
  | none =>
    have form : frame.form = .short := by simpa [Frame.masked, masking] using readable
    exact read_unmasked_short start frame masking form
  | some key => exact read_masked start frame key masking

end Steps

/-- Whether the byte is the last one of the frame being read, as the decoder counts. -/
def completes (self : WebSocketState) (byte : Byte) : Bool :=
  match self.step with
  | .stepStart | .stepShortLength | .stepExtendedLength => false
  | .stepLength => byte &&& 0x80#8 = 0#8 ∧
      if byte &&& 0x7f#8 = 126#8 ∨ byte &&& 0x7f#8 = 127#8 then self.frame.length = 0#64 else byte &&& 0x7f#8 = 0#8
  | .stepKey => self.cipher.pos = 3#2 ∧ self.frame.length = 0#64
  | .stepData => self.buffer.items.length + 1 = self.frame.length.toNat

section Inversion

variable {self : WebSocketState} {byte : Byte}

theorem secondByte_kept (self : WebSocketState) (byte : Byte) :
    (self.secondByte byte).client = self.client ∧ (self.secondByte byte).frame.header = self.frame.header ∧
      (self.secondByte byte).step ≠ .stepStart := by
  unfold secondByte
  split
  · simp
  · split
    · simp
    · refine ⟨rfl, rfl, ?_⟩
      dsimp only
      split <;> simp

theorem setWidth_eq_zero (low : Byte) : low.setWidth 64 = 0#64 ↔ low = 0#8 := by
  constructor
  · intro equal
    have value := congrArg BitVec.toNat equal
    rw [BitVec.toNat_setWidth, Nat.mod_eq_of_lt (by omega)] at value
    exact BitVec.eq_of_toNat_eq value
  · rintro rfl
    rfl

theorem secondByte_completes (step : self.step = .stepLength) :
    (!(self.secondByte byte).masking ∧ (self.secondByte byte).frame.length = 0#64) ↔ completes self byte = true := by
  have masking : (self.secondByte byte).masking = decide (byte &&& 0x80#8 ≠ 0#8) := by
    unfold secondByte
    split
    · rfl
    · split <;> rfl
  have length : (self.secondByte byte).frame.length =
      if byte &&& 0x7f#8 = 126#8 ∨ byte &&& 0x7f#8 = 127#8 then self.frame.length
      else (byte &&& 0x7f#8).setWidth 64 := by
    unfold secondByte
    by_cases short : byte &&& 0x7f#8 = 126#8
    · simp [short]
    · by_cases long : byte &&& 0x7f#8 = 127#8
      · simp [long]
      · simp [short, long]
  rw [masking, length]
  simp only [completes, step, decide_eq_true_eq]
  split
  · simp
  · simp only [setWidth_eq_zero, Bool.not_eq_true', decide_eq_false_iff_not, ne_eq, not_not]

theorem lengthByte_kept (begun : self.step ≠ .stepStart) {next : WebSocketState}
    (read : self.lengthByte byte = .ok next) : next.client = self.client ∧ next.step ≠ .stepStart := by
  unfold lengthByte at read
  obtain ⟨⟨length, doneReadingLength⟩, -, read⟩ := bind_ok read
  cases doneReadingLength
  · obtain ⟨lengthPos, -, read⟩ := bind_ok read
    cases read
    exact ⟨rfl, begun⟩
  · cases read
    refine ⟨rfl, ?_⟩
    dsimp only
    split <;> simp

variable [GrowthPolicy] {T : Type} {connectionType : WebSocketConnectionType}
  {callbacks : WebSocketCallbacks T} {context : T}

theorem append_buffer_length (capacity : Nat) (item : Byte) :
    ((if self.buffer.capacity = 0 then self.buffer.ensureTotalCapacity capacity else self.buffer).append
      item).items.length = self.buffer.items.length + 1 := by
  split <;> simp

/-- The state in which `end_message` is called when the byte completes the frame. -/
def ending (self : WebSocketState) (byte : Byte) : WebSocketState :=
  match self.step with
  | .stepLength => self.secondByte byte
  | .stepKey => { self with
      cipher := { self.cipher with key := fun i => if i = self.cipher.pos then byte else self.cipher.key i }
      step := .stepData }
  | .stepData =>
    let buffer :=
      if self.buffer.capacity = 0 then
        self.buffer.ensureTotalCapacity (min self.frame.length.toNat maximumPreallocatedBytesPerFrame)
      else self.buffer
    { self with buffer := buffer.append (byte ^^^ self.cipher.key self.dataInkey) }
  | _ => self

theorem ending_kept (self : WebSocketState) (byte : Byte) :
    (ending self byte).client = self.client ∧ (ending self byte).frame.header = self.frame.header := by
  unfold ending
  split
  · exact ⟨(secondByte_kept self byte).1, (secondByte_kept self byte).2.1⟩
  · exact ⟨rfl, rfl⟩
  · exact ⟨rfl, rfl⟩
  · exact ⟨rfl, rfl⟩

theorem processByte_completes (complete : completes self byte = true) :
    processByte connectionType callbacks (self, context) byte =
      .ok ((ending self byte).endMessage connectionType callbacks context) := by
  cases step : self.step
  case stepLength =>
    simp only [processByte, ending, step, if_pos ((secondByte_completes step).mpr complete)]
  all_goals simp only [completes, step, decide_eq_true_eq, Bool.false_eq_true] at complete
  case stepKey =>
    obtain ⟨last, empty⟩ := complete
    simp only [processByte, ending, step, last, empty, ite_true]
  case stepData =>
    simp only [processByte, ending, step, append_buffer_length, complete, ite_true]

theorem processByte_silent (incomplete : completes self byte = false) {next : WebSocketState} {contextNext : T}
    {out : List Event}
    (read : processByte connectionType callbacks (self, context) byte = .ok ((next, contextNext), out)) :
    out = [] ∧ next.step ≠ .stepStart ∧ next.client = self.client ∧ contextNext = context := by
  cases step : self.step
  case stepStart =>
    simp only [processByte, step] at read
    cases read
    simp
  case stepLength =>
    have begun : ¬ (!(self.secondByte byte).masking ∧ (self.secondByte byte).frame.length = 0#64) := by
      rw [secondByte_completes step, incomplete]
      simp
    simp only [processByte, step, if_neg begun] at read
    cases read
    exact ⟨rfl, (secondByte_kept self byte).2.2, (secondByte_kept self byte).1, rfl⟩
  case stepData =>
    simp only [completes, step, decide_eq_false_iff_not] at incomplete
    simp only [processByte, step, append_buffer_length, if_neg incomplete] at read
    cases read
    simp
  case stepKey =>
    simp only [completes, step, decide_eq_false_iff_not, not_and] at incomplete
    simp only [processByte, step] at read
    by_cases last : self.cipher.pos = 3#2
    · rw [if_pos last, if_neg (incomplete last)] at read
      cases read
      simp
    · rw [if_neg last] at read
      split at read
      · cases read
      · cases read
        simp [step]
  all_goals
    simp only [processByte, step] at read
    split at read
    · cases read
    · rename_i after lengthRead
      cases read
      obtain ⟨client, between⟩ := lengthByte_kept (by rw [step]; simp) lengthRead
      exact ⟨rfl, between, client, rfl⟩

end Inversion

end ZapeProof
