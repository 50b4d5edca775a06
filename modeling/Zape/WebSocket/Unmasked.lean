import Zape.WebSocket.Delivery

/-! Frames without a key: which of them are decoded, and what the key of an earlier frame does to them. -/
namespace ZapeProof

open Machine Zig ZapeModel ZapeModel.WebSocketState

variable {T : Type} {connectionType : WebSocketConnectionType} {callbacks : WebSocketCallbacks T}

section Prefixes

/-- The frames that lie within the first bytes of the stream. -/
def wholeFrames : List Frame → Nat → List Frame
  | [], _ => []
  | frame :: frames, count =>
    if frame.wire.length ≤ count then frame :: wholeFrames frames (count - frame.wire.length) else []

theorem wholeFrames_append (good rest : List Frame) (count : Nat) :
    wholeFrames (good ++ rest) ((good.flatMap Frame.wire).length + count) = good ++ wholeFrames rest count := by
  induction good with
  | nil => simp
  | cons frame good ih =>
    rw [List.flatMap_cons, List.length_append, List.cons_append, wholeFrames, if_pos (by omega)]
    have left : frame.wire.length + (good.flatMap Frame.wire).length + count - frame.wire.length =
        (good.flatMap Frame.wire).length + count := by omega
    rw [left, ih]
    rfl

theorem mem_wholeFrames {frame : Frame} {frames : List Frame} {count : Nat}
    (member : frame ∈ wholeFrames frames count) : frame ∈ frames := by
  induction frames generalizing count with
  | nil => exact member
  | cons other frames ih =>
    rw [wholeFrames] at member
    split at member
    · rcases List.mem_cons.mp member with rfl | member
      · exact List.mem_cons_self
      · exact List.mem_cons_of_mem _ (ih member)
    · cases member

theorem mask_zero (index : BitVec 2) (bytes : List Byte) :
    MaskingKey.mask (fun _ => 0#8) index bytes = bytes := by
  induction bytes generalizing index with
  | nil => rfl
  | cons byte bytes ih => simp [MaskingKey.mask, ih]

theorem readings_unmasked {frames : List Frame} (unmasked : ∀ frame ∈ frames, frame.maskingKey = none) :
    readings (fun _ => 0#8) frames = frames.map fun frame => (frame, frame.payload) := by
  induction frames with
  | nil => rfl
  | cons frame frames ih =>
    have none : frame.maskingKey = none := unmasked frame (by simp)
    have whole : received (fun _ => 0#8) frame = frame.payload := by rw [received, none]; exact mask_zero _ _
    have key : keyAfter (fun _ => 0#8) frame = fun _ => 0#8 := by rw [keyAfter, none]; rfl
    rw [readings, whole, key, ih fun other member => unmasked other (by simp [member])]
    rfl

variable [GrowthPolicy]

/-- Bytes that leave the decoder between two frames end with one that completed a message. -/
theorem ended_of_start {decoder last : WebSocketState × T} {bytes : List Byte} {out : List Event}
    (nonempty : bytes ≠ []) (read : run (processByte connectionType callbacks) decoder bytes = .ok (last, out))
    (start : last.1.step = .stepStart) : endMessages out ≠ [] := by
  obtain ⟨front, byte, rfl⟩ : ∃ front byte, bytes = front ++ [byte] :=
    ⟨_, _, (List.dropLast_append_getLast nonempty).symm⟩
  rw [run_append] at read
  obtain ⟨⟨self, context⟩, head, rest, -, final, rfl⟩ := andThen_cases read
  rw [run_singleton] at final
  intro silent
  rw [endMessages_append, List.append_eq_nil_iff] at silent
  cases complete : completes self byte
  · obtain ⟨-, between, -, -⟩ := processByte_silent complete final
    exact between start
  · have counted := endMessage_ended connectionType callbacks (ending self byte) context
    rw [processByte_completes complete] at final
    rw [Except.ok.inj final, silent.2] at counted
    cases counted

theorem proper_prefix_silent {decoder last : WebSocketState × T} {front back : List Byte} {out : List Event}
    (proper : back ≠ [])
    (read : run (processByte connectionType callbacks) decoder (front ++ back) = .ok (last, out))
    (start : last.1.step = .stepStart) (one : (endMessages out).length = 1) :
    ∃ next head, run (processByte connectionType callbacks) decoder front = .ok (next, head) ∧
      endMessages head = [] := by
  rw [run_append] at read
  obtain ⟨next, head, rest, first, second, rfl⟩ := andThen_cases read
  have ended := List.length_pos_of_ne_nil (ended_of_start proper second start)
  rw [endMessages_append, List.length_append] at one
  exact ⟨next, head, first, List.eq_nil_of_length_eq_zero (by omega)⟩

theorem prefix_decoded {decoder : WebSocketState × T} {session : Session T} (between : Between decoder session)
    {frames : List Frame} (readable : ∀ frame ∈ frames, frame.masked = true ∨ frame.form = .short)
    {bytes : List Byte} (part : bytes <+: frames.flatMap Frame.wire) :
    ∃ last out, run (processByte connectionType callbacks) decoder bytes = .ok (last, out) ∧
      endMessages out = (readings session.key (wholeFrames frames bytes.length)).map
        fun reading => (reading.1.headerByte, reading.2) := by
  induction frames generalizing decoder session bytes with
  | nil =>
    have empty : bytes = [] := List.prefix_nil.mp part
    subst empty
    exact ⟨decoder, [], rfl, rfl⟩
  | cons frame frames ih =>
    obtain ⟨next, sessionNext, out, read, delivered, after⟩ := @decoder_delivers T connectionType callbacks _
      decoder session between frame (readable frame (by simp))
    have trace := deliver_trace delivered
    rw [List.flatMap_cons] at part
    by_cases whole : frame.wire.length ≤ bytes.length
    · obtain ⟨rest, rfl⟩ : frame.wire <+: bytes := List.prefix_of_prefix_length_le (List.prefix_append _ _) part whole
      rw [List.prefix_append_right_inj] at part
      obtain ⟨last, more, reads, ended⟩ := ih after (fun other member => readable other (by simp [member])) part
      refine ⟨last, out ++ more, run_ok_append read reads, ?_⟩
      rw [endMessages_append, trace.ended, ended, wholeFrames, if_pos whole, readings, trace.key, List.length_append,
        Nat.add_sub_cancel_left]
      rfl
    · obtain ⟨rest, split⟩ : bytes <+: frame.wire :=
        List.prefix_of_prefix_length_le part (List.prefix_append _ _) (by omega)
      rw [← split] at read whole
      have proper : rest ≠ [] := by
        intro empty
        rw [empty, List.append_nil] at whole
        omega
      obtain ⟨last, head, opening, silent⟩ := proper_prefix_silent proper read after.step (by rw [trace.ended]; rfl)
      refine ⟨last, head, opening, ?_⟩
      rw [silent, wholeFrames, ← split, if_neg whole]
      rfl

end Prefixes

section Forms

theorem extended_wire {frame : Frame} (unmasked : frame.maskingKey = none) (extended : frame.form ≠ .short) :
    2 < frame.wire.length ∧ (frame.wire.take 2 = [frame.headerByte, 126#8] ∨
      frame.wire.take 2 = [frame.headerByte, 127#8]) := by
  have bit : frame.maskBit = 0#8 := by simp [Frame.maskBit, Frame.masked, unmasked]
  cases form : frame.form with
  | short => exact absurd form extended
  | extended16 =>
    simp only [Frame.wire, Frame.lengthField, form, bit, List.cons_append, List.length_cons, List.length_append,
      bigEndianBytes_length]
    exact ⟨by omega, .inl rfl⟩
  | extended64 =>
    simp only [Frame.wire, Frame.lengthField, form, bit, List.cons_append, List.length_cons, List.length_append,
      bigEndianBytes_length]
    exact ⟨by omega, .inr rfl⟩

theorem first_extended {frames : List Frame} (some : ¬ ∀ frame ∈ frames, frame.form = .short) :
    ∃ good bad rest, frames = good ++ bad :: rest ∧ (∀ frame ∈ good, frame.form = .short) ∧ bad.form ≠ .short := by
  induction frames with
  | nil => exact absurd (by simp) some
  | cons frame frames ih =>
    by_cases form : frame.form = .short
    · have later : ¬ ∀ other ∈ frames, other.form = .short := fun all => some (by simp [form]; exact all)
      obtain ⟨good, bad, rest, rfl, short, extended⟩ := ih later
      exact ⟨frame :: good, bad, rest, rfl, by simp [form]; exact short, extended⟩
    · exact ⟨[], frame, frames, rfl, by simp, form⟩

variable [GrowthPolicy]

/-- Whatever has been read of the frames, the messages ended are those of the frames read whole. -/
def DecodedFrameByFrame (connectionType : WebSocketConnectionType) (callbacks : WebSocketCallbacks T) (context : T)
    (frames : List Frame) : Prop :=
  ∀ reads : List (List Byte), reads.flatten <+: frames.flatMap Frame.wire →
    ∃ last out, run (processData connectionType callbacks) (({} : WebSocketState), context) reads = .ok (last, out) ∧
      endMessages out =
        (wholeFrames frames reads.flatten.length).map fun frame => (frame.headerByte, frame.payload)

theorem short_decoded (context : T) {frames : List Frame} (unmasked : ∀ frame ∈ frames, frame.maskingKey = none)
    (short : ∀ frame ∈ frames, frame.form = .short) :
    DecodedFrameByFrame connectionType callbacks context frames := by
  intro reads part
  obtain ⟨last, out, decoded, ended⟩ := @prefix_decoded T connectionType callbacks _ _ _ (between_fresh context) frames
    (fun frame member => .inr (short frame member)) reads.flatten part
  refine ⟨last, out, (run_flatten _ _ reads).trans decoded, ?_⟩
  have inherited : ∀ frame ∈ wholeFrames frames reads.flatten.length, frame.maskingKey = none :=
    fun frame member => unmasked frame (mem_wholeFrames member)
  rw [ended, readings_unmasked inherited, List.map_map]
  rfl

/-- The first two bytes of an unmasked frame with an extended length end an empty message. -/
theorem extended_completed {self : WebSocketState} {context : T} (start : self.step = .stepStart) {frame : Frame}
    (unmasked : frame.maskingKey = none) (extended : frame.form ≠ .short) :
    ∃ last : WebSocketState, run (processByte connectionType callbacks) (self, context) (frame.wire.take 2) =
        .ok (last.endMessage connectionType callbacks context) ∧
      Completed self frame.headerByte self.cipher.key [] last := by
  obtain ⟨first, readHeader, atLength⟩ := @read_header _ T connectionType callbacks self context frame.headerByte start
  obtain ⟨low, short, two⟩ : ∃ low : Byte, (low = 126#8 ∨ low = 127#8) ∧ frame.wire.take 2 = [frame.headerByte, low] := by
    rcases (extended_wire unmasked extended).2 with two | two
    · exact ⟨126#8, .inl rfl, two⟩
    · exact ⟨127#8, .inr rfl, two⟩
  have bits : low &&& 0x80#8 = 0#8 ∧ (low &&& 0x7f#8 = 0#8 ∨ low &&& 0x7f#8 = 126#8 ∨ low &&& 0x7f#8 = 127#8) := by
    rcases short with rfl | rfl <;> decide
  obtain ⟨last, readLength, completed⟩ := @AtLength.unmasked_empty _ T connectionType callbacks _ _ context _ low atLength
    bits.1 bits.2
  rw [two]
  exact ⟨last, run_ok_cons readHeader ((run_singleton _ _ _).trans readLength), completed⟩

theorem extended_ends_early {decoder : WebSocketState × T} (start : decoder.1.step = .stepStart) {frame : Frame}
    (unmasked : frame.maskingKey = none) (extended : frame.form ≠ .short) :
    ∃ last out, run (processByte connectionType callbacks) decoder (frame.wire.take 2) = .ok (last, out) ∧
      endMessages out = [(frame.headerByte, [])] := by
  obtain ⟨last, read, completed⟩ := @extended_completed T connectionType callbacks _ decoder.1 decoder.2 start frame unmasked
    extended
  have ended := endMessage_ended connectionType callbacks last decoder.2
  rw [completed.header, completed.items] at ended
  exact ⟨_, _, read, ended⟩

theorem short_of_decoded (context : T) {frames : List Frame} (unmasked : ∀ frame ∈ frames, frame.maskingKey = none)
    (decoded : DecodedFrameByFrame connectionType callbacks context frames) :
    ∀ frame ∈ frames, frame.form = .short := by
  by_contra some
  obtain ⟨good, bad, rest, rfl, short, extended⟩ := first_extended some
  have known : ∀ frame ∈ good, frame.maskingKey = none := fun frame member => unmasked frame (by simp [member])
  obtain ⟨middle, session, out, read, delivered, between⟩ := @reads_deliver T connectionType callbacks _ _ _
    (between_fresh context) good
    fun frame member => .inr (short frame member)
  obtain ⟨last, more, early, one⟩ := @extended_ends_early T connectionType callbacks _ middle between.step bad
    (unmasked bad (by simp)) extended
  have long := (extended_wire (unmasked bad (by simp)) extended).1
  have part : [good.flatMap Frame.wire ++ bad.wire.take 2].flatten <+: (good ++ bad :: rest).flatMap Frame.wire := by
    rw [List.flatten_singleton, List.flatMap_append, List.flatMap_cons]
    exact List.prefix_append_right_inj _ |>.mpr ((List.take_prefix 2 bad.wire).trans (List.prefix_append _ _))
  obtain ⟨decoder, events, decodedRun, ended⟩ := decoded _ part
  have actual := (run_flatten _ _ _).symm.trans decodedRun
  rw [List.flatten_singleton, run_ok_append read early] at actual
  cases actual
  have taken : (bad.wire.take 2).length = 2 := by rw [List.length_take]; omega
  rw [List.flatten_singleton, List.length_append, taken, wholeFrames_append, wholeFrames, if_neg (by omega),
    List.append_nil, endMessages_append, one, (run_deliver_trace delivered).ended, readings_unmasked known,
    List.map_map] at ended
  have lengths := congrArg List.length ended
  simp at lengths

theorem unmasked_decoded_iff (connectionType : WebSocketConnectionType) (callbacks : WebSocketCallbacks T)
    (context : T) (frames : List Frame) (unmasked : ∀ frame ∈ frames, frame.maskingKey = none) :
    DecodedFrameByFrame connectionType callbacks context frames ↔ ∀ frame ∈ frames, frame.form = .short :=
  ⟨short_of_decoded context unmasked, short_decoded context unmasked⟩

end Forms

theorem unmasked_decoded_iff_short :
    @DecodedFrameByFrame Unit halfAgain .client {} () [⟨true, .text, .short, none, [0x48#8, 0x69#8], by decide⟩] :=
  (@unmasked_decoded_iff Unit halfAgain .client {} () _ (by simp)).mpr (by simp)

/-- A text of 126 bytes, the shortest that needs a 16-bit length. -/
theorem unmasked_text_not_decoded :
    ¬ @DecodedFrameByFrame Unit halfAgain .client {} ()
        [⟨true, .text, .extended16, none, List.replicate 126 0x41#8, by simp [LengthForm.capacity]⟩] := by
  intro decoded
  have short := @short_of_decoded Unit .client {} halfAgain () _ (by simp) decoded
  simp at short

section History

theorem mask_eq_self (key : MaskingKey) (index : BitVec 2) (bytes : List Byte) :
    key.mask index bytes = bytes ↔ ∀ i < bytes.length, key (index + BitVec.ofNat 2 i) = 0#8 := by
  induction bytes generalizing index with
  | nil => simp [MaskingKey.mask]
  | cons byte bytes ih =>
    have first : byte ^^^ key index = byte ↔ key index = 0#8 := by
      constructor
      · intro equal
        have cancelled := congrArg (byte ^^^ ·) equal
        simpa [← BitVec.xor_assoc] using cancelled
      · intro zero
        simp [zero]
    have shifted (i : Nat) : index + 1#2 + BitVec.ofNat 2 i = index + BitVec.ofNat 2 (i + 1) := by
      rw [BitVec.ofNat_add, BitVec.add_assoc, BitVec.add_comm 1#2]
    rw [MaskingKey.mask, List.cons.injEq, first, ih, List.length_cons, Nat.forall_lt_succ_left]
    simp only [shifted, BitVec.add_zero]

theorem received_eq_fresh (stale : MaskingKey) (frame : Frame) :
    received stale frame = received (fun _ => 0#8) frame ↔
      frame.masked = true ∨ ∀ i < frame.payload.length, stale (BitVec.ofNat 2 i) = 0#8 := by
  unfold received Frame.masked
  cases frame.maskingKey with
  | none => simp [mask_zero, mask_eq_self]
  | some key => simp

variable [GrowthPolicy]

/-- Fed after the history, the frame ends the same message as fed to a fresh decoder, in whatever reads
    the two arrive. -/
def HistoryIndependent (connectionType : WebSocketConnectionType) (callbacks : WebSocketCallbacks T) (context : T)
    (history : List Frame) (frame : Frame) : Prop :=
  ∀ reads pieces : List (List Byte), reads.flatten = history.flatMap Frame.wire → pieces.flatten = frame.wire →
    ∃ middle earlier last later fresh alone,
      run (processData connectionType callbacks) (({} : WebSocketState), context) reads = .ok (middle, earlier) ∧
      run (processData connectionType callbacks) middle pieces = .ok (last, later) ∧
      run (processData connectionType callbacks) (({} : WebSocketState), context) pieces = .ok (fresh, alone) ∧
      endMessages later = endMessages alone

/-- The frame after the history, and alone, as the decoder reads it in any reads. -/
theorem frame_after (context : T) {history : List Frame} {frame : Frame}
    (short : ∀ other ∈ history ++ [frame], other.form = .short) {reads pieces : List (List Byte)}
    (cutHistory : reads.flatten = history.flatMap Frame.wire) (cutFrame : pieces.flatten = frame.wire) :
    ∃ middle earlier last later,
      run (processData connectionType callbacks) (({} : WebSocketState), context) reads = .ok (middle, earlier) ∧
      run (processData connectionType callbacks) middle pieces = .ok (last, later) ∧
      endMessages later =
        [(frame.headerByte, received (history.foldl keyAfter fun _ => 0#8) frame)] := by
  obtain ⟨middle, session, earlier, read, delivered, between⟩ := @reads_deliver T connectionType callbacks _ _ _
    (between_fresh context)
    history fun other member => .inr (short other (by simp [member]))
  obtain ⟨last, sessionLast, later, reading, deliveredLast, -⟩ := @decoder_delivers T connectionType callbacks _ middle
    session between frame (.inr (short frame (by simp)))
  refine ⟨middle, earlier, last, later, ?_, ?_, ?_⟩
  · rw [← read, ← cutHistory]
    exact run_flatten _ _ reads
  · rw [← reading, ← cutFrame]
    exact run_flatten _ _ pieces
  · rw [(deliver_trace deliveredLast).ended, (run_deliver_trace delivered).key]
    rfl

theorem independent_iff_received (context : T) {history : List Frame} {frame : Frame}
    (short : ∀ other ∈ history ++ [frame], other.form = .short) :
    HistoryIndependent connectionType callbacks context history frame ↔
      received (history.foldl keyAfter fun _ => 0#8) frame = received (fun _ => 0#8) frame := by
  have alone : ∀ other ∈ [] ++ [frame], other.form = .short := fun other member => short other (by simp_all)
  constructor
  · intro independent
    have whole : [history.flatMap Frame.wire].flatten = history.flatMap Frame.wire := List.flatten_singleton
    have piece : [frame.wire].flatten = frame.wire := List.flatten_singleton
    obtain ⟨middle, earlier, last, later, readHistory, readFrame, after⟩ :=
      @frame_after T connectionType callbacks _ context history frame short _ _ whole piece
    obtain ⟨_, _, fresh, aloneOut, nothing, readAlone, single⟩ :=
      @frame_after T connectionType callbacks _ context [] frame alone [] _ rfl piece
    obtain ⟨_, _, _, _, _, _, readHistory', readFrame', readAlone', same⟩ := independent _ _ whole piece
    cases nothing
    cases readHistory.symm.trans readHistory'
    cases readFrame.symm.trans readFrame'
    cases readAlone.symm.trans readAlone'
    rw [after, single] at same
    simpa using same
  · intro same reads pieces cutHistory cutFrame
    obtain ⟨middle, earlier, last, later, readHistory, readFrame, after⟩ := frame_after context short cutHistory cutFrame
    obtain ⟨_, _, fresh, aloneOut, nothing, readAlone, single⟩ := @frame_after T connectionType callbacks _ context []
      frame alone [] pieces rfl cutFrame
    cases nothing
    refine ⟨middle, earlier, last, later, fresh, aloneOut, readHistory, readFrame, readAlone, ?_⟩
    rw [after, single, same]
    rfl

theorem history_independent_iff (connectionType : WebSocketConnectionType) (callbacks : WebSocketCallbacks T)
    (context : T) (history : List Frame) (frame : Frame)
    (short : ∀ other ∈ history ++ [frame], other.form = .short) :
    HistoryIndependent connectionType callbacks context history frame ↔
      frame.masked = true ∨
        ∀ i < frame.payload.length, history.foldl keyAfter (fun _ => 0#8) (BitVec.ofNat 2 i) = 0#8 :=
  (independent_iff_received context short).trans (received_eq_fresh _ _)

end History

/-- An unmasked frame after a masked one whose key is zero in the two positions the payload uses. -/
theorem history_independent_iff_zero_key :
    @HistoryIndependent Unit halfAgain .server {} ()
      [⟨true, .text, .short, some fun i => if i = 3#2 then 1#8 else 0#8, [0x41#8], by decide⟩]
      ⟨true, .text, .short, none, [0x48#8, 0x69#8], by decide⟩ :=
  (@history_independent_iff Unit halfAgain .server {} () _ _ (by simp)).mpr (.inr (by decide))

/-- The key of a masked frame garbles the unmasked frame behind it. -/
theorem stale_key_garbles :
    ¬ @HistoryIndependent Unit halfAgain .server {} ()
      [⟨true, .text, .short, some fun _ => 0x01#8, [0x41#8], by decide⟩]
      ⟨true, .text, .short, none, [0x48#8, 0x69#8], by decide⟩ := by
  rw [@independent_iff_received Unit .server {} halfAgain () _ _ (by simp)]
  decide

end ZapeProof
