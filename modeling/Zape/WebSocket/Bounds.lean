import Zape.WebSocket.Decoding

/-! What the decoder's counters count, on any input at all: no byte can make it fail or keep it in a frame that is read. -/
namespace ZapeProof

open Machine Zig ZapeModel ZapeModel.WebSocketState

/-- How many bytes of its extended length and of its key were read of the current frame. -/
structure HeaderCounts where
  length : Nat := 0
  key : Nat := 0

def HeaderCounts.read (counts : HeaderCounts) : ParsingState → HeaderCounts
  | .stepStart => {}
  | .stepShortLength | .stepExtendedLength => { counts with length := counts.length + 1 }
  | .stepKey => { counts with key := counts.key + 1 }
  | .stepLength | .stepData => counts

/-- What the counters of a decoder say in each of its steps. -/
structure InBounds (decoder : WebSocketState) (counts : HeaderCounts) : Prop where
  data : decoder.step = .stepData → decoder.buffer.items.length < decoder.frame.length.toNat
  key : decoder.step = .stepKey → decoder.cipher.pos.toNat = counts.key
  length : decoder.step = .stepShortLength ∨ decoder.step = .stepExtendedLength →
    decoder.frame.lengthPos.toNat = counts.length ∧ counts.length < lengthBytes decoder.step ∧
      decoder.frame.length.toNat < 256 ^ decoder.frame.lengthPos.toNat

/-- Nothing is read that comes behind the length. -/
structure NoKey (decoder : WebSocketState) (counts : HeaderCounts) : Prop where
  items : decoder.buffer.items = []
  pos : decoder.cipher.pos = 0#2
  key : counts.key = 0

/-- Where a decoder is in a frame. -/
def Reading (self : WebSocketState) (counts : HeaderCounts) : Prop :=
  match self.step with
  | .stepStart => True
  | .stepLength => NoKey self counts ∧ counts.length = 0 ∧ self.frame.lengthPos = 0#3 ∧ self.frame.length = 0#64
  | .stepShortLength | .stepExtendedLength =>
    NoKey self counts ∧ self.masking = true ∧ counts.length < lengthBytes self.step ∧
      ∃ bytes, bytes.length = counts.length ∧ self.frame.lengthPos.toNat = bytes.length ∧
        self.frame.length.toNat = littleEndian bytes
  | .stepKey => self.buffer.items = [] ∧ self.cipher.pos.toNat = counts.key
  | .stepData => self.buffer.items.length < self.frame.length.toNat

section Steps

variable {self : WebSocketState} {counts : HeaderCounts}

theorem reading_start (step : self.step = .stepStart) : Reading self counts := by
  unfold Reading
  rw [step]
  trivial

theorem reading_key (step : self.step = .stepKey) :
    Reading self counts ↔ self.buffer.items = [] ∧ self.cipher.pos.toNat = counts.key := by
  unfold Reading
  rw [step]

theorem reading_data (step : self.step = .stepData) :
    Reading self counts ↔ self.buffer.items.length < self.frame.length.toNat := by
  unfold Reading
  rw [step]

theorem reading_length (step : self.step = .stepLength) :
    Reading self counts ↔
      NoKey self counts ∧ counts.length = 0 ∧ self.frame.lengthPos = 0#3 ∧ self.frame.length = 0#64 := by
  unfold Reading
  rw [step]

theorem reading_extended (step : self.step = .stepShortLength ∨ self.step = .stepExtendedLength) :
    Reading self counts ↔ NoKey self counts ∧ self.masking = true ∧ counts.length < lengthBytes self.step ∧
      ∃ bytes, bytes.length = counts.length ∧ self.frame.lengthPos.toNat = bytes.length ∧
        self.frame.length.toNat = littleEndian bytes := by
  unfold Reading
  rcases step with step | step <;> rw [step]

theorem Reading.inBounds (reading : Reading self counts) : InBounds self counts where
  data := fun step => (reading_data step).mp reading
  key := fun step => ((reading_key step).mp reading).2
  length := by
    intro step
    obtain ⟨-, -, more, bytes, count, position, spelled⟩ := (reading_extended step).mp reading
    rw [position, spelled]
    exact ⟨count, more, littleEndian_lt bytes⟩

variable {T : Type} (connectionType : WebSocketConnectionType) (callbacks : WebSocketCallbacks T) (context : T)

theorem reading_ended : Reading (self.endMessage connectionType callbacks context).1.1 counts := reading_start rfl

variable [GrowthPolicy] (byte : Byte)

/-- The decoder reads the byte, and is then in a frame as its counters say. -/
def Goes (self : WebSocketState) (counts : HeaderCounts) : Prop :=
  ∃ next out, processByte connectionType callbacks (self, context) byte = .ok (next, out) ∧
    Reading next.1 (counts.read self.step)

variable {connectionType callbacks context byte}

theorem goes_start (step : self.step = .stepStart) : Goes connectionType callbacks context byte self counts := by
  unfold Goes processByte
  simp only [step]
  refine ⟨_, _, rfl, (reading_length rfl).mpr ⟨?_, rfl, rfl, rfl⟩⟩
  exact { items := rfl, pos := rfl, key := rfl }

theorem goes_complete (complete : completes self byte = true) : Goes connectionType callbacks context byte self counts :=
  ⟨_, _, processByte_completes complete, reading_ended connectionType callbacks context⟩

/-- Without a key the length of a frame that has an extended one is still 0 here, so that the frame ends at once. -/
theorem goes_length (step : self.step = .stepLength) (reading : Reading self counts)
    (incomplete : ¬ completes self byte = true) : Goes connectionType callbacks context byte self counts := by
  obtain ⟨unread, count, position, zero⟩ := (reading_length step).mp reading
  have begun := (not_congr (secondByte_completes step)).mpr incomplete
  have read : processByte connectionType callbacks (self, context) byte = .ok ((self.secondByte byte, context), []) := by
    simp only [processByte, step, if_neg begun]
  have counted : counts.read self.step = counts := by rw [step]; rfl
  unfold Goes
  rw [counted]
  refine ⟨_, _, read, ?_⟩
  unfold secondByte at begun ⊢
  have extended : ∀ step, step = .stepShortLength ∨ step = .stepExtendedLength → byte &&& 0x80#8 ≠ 0#8 →
      Reading { self with masking := byte &&& 0x80#8 ≠ 0#8, step } counts := by
    intro next long masked
    refine (reading_extended long).mpr ⟨?_, decide_eq_true masked, ?_, [], ?_, ?_, ?_⟩
    · exact { items := unread.items, pos := unread.pos, key := unread.key }
    · show counts.length < lengthBytes next
      rcases long with long | long <;> rw [long, count] <;> decide
    · rw [count]
      rfl
    · show self.frame.lengthPos.toNat = 0
      rw [position]
      rfl
    · show self.frame.length.toNat = 0
      rw [zero]
      rfl
  split at begun
  · rename_i short
    rw [if_pos short]
    exact extended _ (.inl rfl) (by simpa [zero] using begun)
  · rename_i longer
    rw [if_neg longer]
    split at begun
    · rename_i long
      rw [if_pos long]
      exact extended _ (.inr rfl) (by simpa [zero] using begun)
    · rename_i whole
      rw [if_neg whole]
      by_cases masked : byte &&& 0x80#8 ≠ 0#8
      · refine (reading_key ?_).mpr ⟨unread.items, ?_⟩
        · simp [masked]
        · show self.cipher.pos.toNat = counts.key
          rw [unread.pos, unread.key]
          rfl
      · refine (reading_data ?_).mpr ?_
        · simp [masked]
        · show self.buffer.items.length < ((byte &&& 0x7f#8).setWidth 64).toNat
          have filled : (byte &&& 0x7f#8).setWidth 64 ≠ 0#64 := by simpa [masked] using begun
          rw [unread.items]
          exact Nat.pos_of_ne_zero fun empty => filled (BitVec.eq_of_toNat_eq empty)

theorem processByte_length {next : WebSocketState} (step : self.step = .stepShortLength ∨ self.step = .stepExtendedLength)
    (read : self.lengthByte byte = .ok next) :
    processByte connectionType callbacks (self, context) byte = .ok ((next, context), []) := by
  rcases step with step | step <;> simp only [processByte, step, read]

theorem goes_extended (step : self.step = .stepShortLength ∨ self.step = .stepExtendedLength)
    (reading : Reading self counts) : Goes connectionType callbacks context byte self counts := by
  obtain ⟨unread, masking, more, bytes, count, position, spelled⟩ := (reading_extended step).mp reading
  have counted : counts.read self.step = { counts with length := counts.length + 1 } := by
    rcases step with step | step <;> rw [step] <;> rfl
  unfold Goes
  rw [counted]
  by_cases last : bytes.length + 1 = lengthBytes self.step
  · obtain ⟨length, read, -⟩ := lengthByte_last byte position spelled last
    rw [masking] at read
    refine ⟨_, _, processByte_length step read, (reading_key rfl).mpr ⟨unread.items, ?_⟩⟩
    show self.cipher.pos.toNat = counts.key
    rw [unread.pos, unread.key]
    rfl
  · obtain ⟨length, lengthPos, read, spelled', position'⟩ := lengthByte_more byte position spelled (by omega)
    refine ⟨_, _, processByte_length step read, ?_⟩
    let next := { self with frame := { self.frame with length, lengthPos } }
    have same : next.step = .stepShortLength ∨ next.step = .stepExtendedLength := step
    refine (reading_extended same).mpr ⟨?_, masking, ?_, bytes ++ [byte], ?_, ?_, spelled'⟩
    · exact { items := unread.items, pos := unread.pos, key := unread.key }
    · show counts.length + 1 < lengthBytes self.step
      omega
    · simp [count]
    · simpa using position'

theorem goes_key (step : self.step = .stepKey) (reading : Reading self counts)
    (incomplete : ¬ completes self byte = true) : Goes connectionType callbacks context byte self counts := by
  obtain ⟨empty, position⟩ := (reading_key step).mp reading
  have counted : counts.read self.step = { counts with key := counts.key + 1 } := by rw [step]; rfl
  simp only [completes, step, decide_eq_true_eq, not_and] at incomplete
  unfold Goes
  rw [counted]
  by_cases last : self.cipher.pos = 3#2
  · have filled := incomplete last
    simp only [processByte, step, if_pos last, if_neg filled]
    refine ⟨_, _, rfl, (reading_data rfl).mpr ?_⟩
    show self.buffer.items.length < self.frame.length.toNat
    rw [empty]
    exact Nat.pos_of_ne_zero fun none => filled (BitVec.eq_of_toNat_eq none)
  · have one : (1#2).toNat = 1 := rfl
    have low : self.cipher.pos.toNat ≠ 3 := fun three => last (BitVec.eq_of_toNat_eq three)
    have added : add self.cipher.pos 1#2 = .ok (self.cipher.pos + 1#2) := add_ok (by omega)
    simp only [processByte, step, if_neg last, added]
    refine ⟨_, _, rfl, (reading_key rfl).mpr ⟨empty, ?_⟩⟩
    show (self.cipher.pos + 1#2).toNat = counts.key + 1
    rw [BitVec.toNat_add, one, Nat.mod_eq_of_lt (by omega), position]

theorem goes_data (step : self.step = .stepData) (reading : Reading self counts)
    (incomplete : ¬ completes self byte = true) : Goes connectionType callbacks context byte self counts := by
  have before := (reading_data step).mp reading
  simp only [completes, step, decide_eq_true_eq] at incomplete
  unfold Goes
  simp only [processByte, step, append_buffer_length, if_neg incomplete]
  refine ⟨_, _, rfl, (reading_data rfl).mpr ?_⟩
  simp only [append_buffer_length]
  omega

/-- From where a decoder can be, every byte leads to such a place again. -/
theorem Reading.goes (reading : Reading self counts) : Goes connectionType callbacks context byte self counts := by
  by_cases complete : completes self byte = true
  · exact goes_complete complete
  · cases step : self.step with
    | stepStart => exact goes_start step
    | stepLength => exact goes_length step reading complete
    | stepShortLength => exact goes_extended (.inl step) reading
    | stepExtendedLength => exact goes_extended (.inr step) reading
    | stepKey => exact goes_key step reading complete
    | stepData => exact goes_data step reading complete

end Steps

section Runs

variable {T : Type} [GrowthPolicy] (connectionType : WebSocketConnectionType) (callbacks : WebSocketCallbacks T)

/-- What the bytes were read as, counted from these on. -/
def countsAfter (decoder : WebSocketState × T) (counts : HeaderCounts) (bytes : List Byte) : HeaderCounts :=
  (collect (processByte connectionType callbacks) (fun decoder _ => [decoder.1.step]) decoder bytes).foldl
    HeaderCounts.read counts

theorem run_reading {decoder : WebSocketState × T} {counts : HeaderCounts} (reading : Reading decoder.1 counts)
    (bytes : List Byte) :
    ∃ last out, run (processByte connectionType callbacks) decoder bytes = .ok (last, out) ∧
      Reading last.1 (countsAfter connectionType callbacks decoder counts bytes) := by
  induction bytes generalizing decoder counts with
  | nil => exact ⟨decoder, [], rfl, reading⟩
  | cons byte bytes ih =>
    obtain ⟨next, head, read, kept⟩ := @Reading.goes _ _ _ connectionType callbacks decoder.2 _ byte reading
    obtain ⟨last, rest, reads, ends⟩ := ih kept
    refine ⟨last, head ++ rest, run_ok_cons read reads, ?_⟩
    unfold countsAfter
    rw [collect_cons_ok read]
    exact ends

/-- Whatever the bytes are and wherever they are cut, no call panics, and the counters are right. -/
theorem decoder_in_bounds (context : T) (pieces : List (List Byte)) :
    ∃ last out, run (processData connectionType callbacks) ({}, context) pieces = .ok (last, out) ∧
      InBounds last.1 (countsAfter connectionType callbacks ({}, context) {} pieces.flatten) := by
  have fresh : Reading {} {} := reading_start rfl
  obtain ⟨last, out, read, reading⟩ := @run_reading _ _ connectionType callbacks ({}, context) {} fresh pieces.flatten
  refine ⟨last, out, ?_, reading.inBounds⟩
  unfold processData
  rw [run_flatten]
  exact read

end Runs

end ZapeProof
