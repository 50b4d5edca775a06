import Zape.WebSocket.Unmasked
import Zape.Zig.Text

/-! The frames that `writev` puts on the wire, and what the decoder of the other side makes of them. -/
namespace ZapeProof

open Machine Zig ZapeModel ZapeModel.WebSocketState

/-- What a list of transport calls hands over. -/
def handed (calls : List TransportCall) : List Byte :=
  calls.flatMap fun
    | .write data _ => data
    | _ => []

def sentBytes (events : List Event) : List Byte :=
  events.flatMap fun
    | .frame _ calls => handed calls
    | _ => []

def gathered (datav : List WebSocketData) : List Byte := datav.flatMap (·.data)

/-- The length of a payload in the fewest bytes that can hold it. -/
def shortestLength (length : Nat) : List Byte :=
  if length ≤ 125 then [BitVec.ofNat 8 length]
  else if length < 2 ^ 16 then 126#8 :: bigEndianBytes 2 length
  else 127#8 :: bigEndianBytes 8 length

def finalFrame (opcode : OpCode) (payload : List Byte) : List Byte :=
  (0x80#8 ||| opcode.toInt.setWidth 8) :: shortestLength payload.length ++ payload

theorem finalFrame_wire (frame : Frame) (final : frame.fin = true) (unmasked : frame.maskingKey = none)
    (shortest : frame.lengthField = shortestLength frame.payload.length) :
    frame.wire = finalFrame frame.kind.opcode frame.payload := by
  simp only [Frame.wire, Frame.headerByte, Frame.body, finalFrame, final, unmasked, shortest, if_true]

section Sending

variable {connectionType : WebSocketConnectionType} {client : WebSocketClient} {datav : List WebSocketData}
  {opcode : OpCode}

theorem gathered_length (datav : List WebSocketData) :
    (gathered datav).length = (datav.map fun data => data.data.length).sum := by
  rw [gathered, List.length_flatMap]

theorem handed_append (left right : List TransportCall) : handed (left ++ right) = handed left ++ handed right :=
  List.flatMap_append

theorem handed_slices (datav : List WebSocketData) :
    handed (datav.map fun data => TransportCall.write data.data data.lifetime) = gathered datav := by
  rw [handed, List.flatMap_map]
  rfl

theorem sent_writev (unclosed : client.closed = false) :
    sentBytes (client.writev connectionType datav opcode) =
      handed (WebSocketClient.payloadHead connectionType opcode (gathered datav).length) ++ gathered datav := by
  have payload : handed (if (gathered datav).length ≠ 0 then
      datav.map fun data => TransportCall.write data.data data.lifetime else []) = gathered datav := by
    by_cases empty : (gathered datav).length = 0
    · rw [if_neg (not_not.mpr empty), List.length_eq_zero_iff.mp empty]
      rfl
    · rw [if_pos empty]
      exact handed_slices datav
  have open_client : client.writev connectionType datav opcode =
      [.frame opcode (WebSocketClient.frameCalls connectionType datav opcode)] := by
    rw [WebSocketClient.writev, unclosed]
    rfl
  rw [open_client]
  show handed (.tcpBufferStart :: _ ++ _ ++ [.tcpBufferEnd]) ++ [] = _
  rw [← gathered_length, List.append_nil, handed_append, handed_append, payload]
  exact List.append_nil _

/-- A header is written for lengths of up to 32 bits. -/
theorem head_short (opcode : OpCode) {length : Nat} (fits : length ≤ 0xFFFFFFFF) :
    handed (WebSocketClient.payloadHead .server opcode length) =
      (0x80#8 ||| opcode.toInt.setWidth 8) :: shortestLength length := by
  unfold WebSocketClient.payloadHead shortestLength
  by_cases short : length ≤ 125
  · rw [if_pos short, if_pos short]
    simp [handed]
  · rw [if_neg short, if_neg short]
    by_cases medium : length ≤ 65535
    · rw [if_pos medium, if_pos (by omega)]
      simp [handed]
    · rw [if_neg medium, if_pos fits, if_neg (by omega)]
      simp [handed]

theorem head_long (opcode : OpCode) {length : Nat} (long : ¬ length ≤ 0xFFFFFFFF) :
    handed (WebSocketClient.payloadHead .server opcode length) = [] := by
  unfold WebSocketClient.payloadHead
  rw [if_neg (by omega), if_neg (by omega), if_neg long]
  rfl

theorem sent_long (unclosed : client.closed = false) (long : ¬ (gathered datav).length ≤ 0xFFFFFFFF) :
    sentBytes (client.writev .server datav opcode) ≠ finalFrame opcode (gathered datav) := by
  intro same
  rw [sent_writev unclosed, head_long opcode long] at same
  have lengths := congrArg List.length same
  simp only [List.nil_append, finalFrame, List.cons_append, List.length_cons, List.length_append] at lengths
  omega

/-- What a server sends is one frame just as long as the payload is of 32 bits of length at most. -/
theorem server_frame_iff (unclosed : client.closed = false) (datav : List WebSocketData) (opcode : OpCode) :
    sentBytes (client.writev .server datav opcode) = finalFrame opcode (gathered datav) ↔
      (gathered datav).length ≤ 0xFFFFFFFF := by
  constructor
  · intro same
    by_contra long
    exact sent_long unclosed long same
  · intro fits
    rw [sent_writev unclosed, head_short opcode fits]
    rfl

theorem server_frame_hello :
    sentBytes (({} : WebSocketClient).writev .server [⟨Zig.text "Hel", .static⟩, ⟨Zig.text "lo", .copy⟩] .text) =
      finalFrame .text (Zig.text "Hello") :=
  (@server_frame_iff {} rfl [⟨Zig.text "Hel", .static⟩, ⟨Zig.text "lo", .copy⟩] .text).mpr (by decide)

/-- A payload of 4 GiB goes out without any header. -/
theorem long_payload_headless :
    sentBytes (({} : WebSocketClient).writev .server [⟨List.replicate (2 ^ 32) 0#8, .copy⟩] .binary) ≠
      finalFrame .binary (gathered [⟨List.replicate (2 ^ 32) 0#8, .copy⟩]) := by
  apply sent_long rfl
  rw [gathered, List.flatMap_singleton, List.length_replicate]
  decide

end Sending

section Receiving

variable {T : Type} {callbacks : WebSocketCallbacks T} {datav : List WebSocketData} {kind : FrameKind}

theorem client_head_short (opcode : OpCode) {length : Nat} (short : length ≤ 125) :
    handed (WebSocketClient.payloadHead .client opcode length) =
      [0x80#8 ||| opcode.toInt.setWidth 8, 0x80#8 ||| BitVec.ofNat 8 length] := by
  unfold WebSocketClient.payloadHead
  rw [if_pos short]
  rfl

theorem client_head_long (opcode : OpCode) {length : Nat} (long : ¬ length ≤ 125) (fits : length ≤ 65535) :
    handed (WebSocketClient.payloadHead .client opcode length) =
      (0x80#8 ||| opcode.toInt.setWidth 8) :: shortestLength length := by
  unfold WebSocketClient.payloadHead shortestLength
  rw [if_neg long, if_pos fits, if_neg long, if_pos (by omega)]
  simp [handed]

/-- The bytes of a short payload are taken for a key and for the begin of a payload that does not come. -/
theorem short_starts_masked (kind : FrameKind) {payload : List Byte} (short : payload.length ≤ 125) :
    ∃ frame : Frame, frame.masked = true ∧
      frame.wire = ([0x80#8 ||| kind.opcode.toInt.setWidth 8, 0x80#8 ||| BitVec.ofNat 8 payload.length] ++ payload) ++
        [0#8, 0#8, 0#8, 0#8] := by
  obtain ⟨a, b, c, d, body, split⟩ : ∃ a b c d body, payload ++ [0#8, 0#8, 0#8, 0#8] = a :: b :: c :: d :: body := by
    match payload with
    | [] => exact ⟨_, _, _, _, _, rfl⟩
    | [_] => exact ⟨_, _, _, _, _, rfl⟩
    | [_, _] => exact ⟨_, _, _, _, _, rfl⟩
    | [_, _, _] => exact ⟨_, _, _, _, _, rfl⟩
    | _ :: _ :: _ :: _ :: _ => exact ⟨_, _, _, _, _, rfl⟩
  have length : body.length = payload.length := by
    have lengths := congrArg List.length split
    simp only [List.length_append, List.length_cons, List.length_nil] at lengths
    omega
  let key : MaskingKey := fun i => if i = 0#2 then a else if i = 1#2 then b else if i = 2#2 then c else d
  have fits : (key.mask 0#2 body).length ≤ LengthForm.short.capacity := by
    rw [MaskingKey.mask_length, length]
    exact short
  refine ⟨{ fin := true, kind, form := .short, maskingKey := some key, payload := key.mask 0#2 body, fits }, rfl, ?_⟩
  simp only [Frame.wire, Frame.headerByte, Frame.lengthField, Frame.maskBit, Frame.masked, Frame.body, Option.isSome_some,
    if_true, MaskingKey.mask_length, MaskingKey.mask_mask, length]
  show _ :: _ :: ([a, b, c, d] ++ body) = _
  rw [List.append_assoc, split]
  rfl

variable [GrowthPolicy]

/-- The decoder of a server reports what a client wrote, as one finished message, and is ready for the next frame. -/
def RoundTrips (callbacks : WebSocketCallbacks T) (context : T) (datav : List WebSocketData) (opcode : OpCode) : Prop :=
  ∃ last out isBinary,
    processData .server callbacks (({} : WebSocketState), context)
      (sentBytes (({} : WebSocketClient).writev .client datav opcode)) = .ok (last, out) ∧
    messages out = [(gathered datav, isBinary, .frameFinish)] ∧ last.1.step = .stepStart

theorem short_not_finished (context : T) {opcode : OpCode} (known : kind.opcode = opcode)
    (short : (gathered datav).length ≤ 125) :
    ¬ RoundTrips callbacks context datav opcode := by
  subst known
  rintro ⟨last, out, isBinary, read, -, start⟩
  obtain ⟨frame, masked, wire⟩ := short_starts_masked kind short
  rw [sent_writev rfl, client_head_short kind.opcode short] at read
  have part : [0x80#8 ||| kind.opcode.toInt.setWidth 8, 0x80#8 ||| BitVec.ofNat 8 (gathered datav).length] ++
      gathered datav <+:
      [frame].flatMap Frame.wire := by
    rw [List.flatMap_singleton, wire]
    exact List.prefix_append _ _
  obtain ⟨last', out', read', ended⟩ := @prefix_decoded T .server callbacks _ _ _ (between_fresh context) [frame]
    (fun other member => .inl (by rw [List.mem_singleton.mp member]; exact masked)) _ part
  cases read.symm.trans read'
  have missing : ¬ frame.wire.length ≤
      ([0x80#8 ||| kind.opcode.toInt.setWidth 8, 0x80#8 ||| BitVec.ofNat 8 (gathered datav).length] ++
        gathered datav).length := by
    rw [wire]
    simp
  rw [wholeFrames, if_neg missing] at ended
  exact ended_of_start (by simp) read start ended

/-- Without the mask bit, the two bytes in front of a 16-bit length already end a message. -/
theorem long_reports_empty (context : T) {opcode : OpCode} (known : kind.opcode = opcode) (data : dataOpcode opcode = true)
    (listens : callbacks.onMessage.isSome = true) (long : ¬ (gathered datav).length ≤ 125)
    (fits : (gathered datav).length ≤ 65535) : ¬ RoundTrips callbacks context datav opcode := by
  subst known
  rintro ⟨last, out, isBinary, read, reported, -⟩
  have capacity : (gathered datav).length ≤ LengthForm.extended16.capacity := by
    show _ ≤ 2 ^ 16 - 1
    omega
  let frame : Frame :=
    { fin := true, kind, form := .extended16, maskingKey := none, payload := gathered datav, fits := capacity }
  have shortest : frame.lengthField = shortestLength frame.payload.length := by
    rw [shortestLength, if_neg long, if_pos (show (gathered datav).length < 2 ^ 16 by omega)]
    simp [frame, Frame.lengthField, Frame.maskBit, Frame.masked]
  have wire : frame.wire = finalFrame kind.opcode (gathered datav) := finalFrame_wire frame rfl rfl shortest
  rw [sent_writev rfl, client_head_long kind.opcode long fits] at read
  have whole : (0x80#8 ||| kind.opcode.toInt.setWidth 8) :: shortestLength (gathered datav).length ++ gathered datav =
      frame.wire.take 2 ++ frame.wire.drop 2 := by
    rw [List.take_append_drop, wire]
    rfl
  obtain ⟨early, two, completed⟩ := @extended_completed T .server callbacks _ ({} : WebSocketState) context rfl frame rfl
    (by simp [frame])
  rw [whole, processData, run_append, two] at read
  obtain ⟨middle, head, rest, first, -, rfl⟩ := andThen_cases read
  have reports := endMessage_reported .server callbacks early context
  have opcode : early.opcode = kind.opcode := @opcode_of_header early frame completed.header
  rw [Except.ok.inj first, opcode, if_pos ⟨data, listens⟩, completed.items] at reports
  rw [messages_append, reports, List.singleton_append] at reported
  have empty : [] = gathered datav := congrArg Prod.fst (List.cons.inj reported).1
  rw [← empty] at long
  exact long (Nat.zero_le _)

/-- Nothing that a client writes, and that is not longer than 16 bits can tell, comes back out of a server's decoder. -/
theorem client_never_round_trips (onMessage : WebSocketClient → T → List Byte → Bool → FrameState → T × List ClientCall)
    (context : T) (datav : List WebSocketData) (opcode : OpCode) (data : opcode = .text ∨ opcode = .binary)
    (fits : (gathered datav).length ≤ 65535) : ¬ RoundTrips { onMessage } context datav opcode := by
  obtain ⟨kind, known, reported⟩ : ∃ kind : FrameKind, kind.opcode = opcode ∧ dataOpcode opcode = true := by
    rcases data with rfl | rfl
    · exact ⟨.text, rfl, rfl⟩
    · exact ⟨.binary, rfl, rfl⟩
  by_cases short : (gathered datav).length ≤ 125
  · exact short_not_finished context known short
  · exact long_reports_empty context known reported rfl short fits

end Receiving

/-- A text of 200 bytes. -/
theorem client_text_lost :
    ¬ @RoundTrips Unit halfAgain { onMessage := some fun _ _ _ _ _ => ((), []) } ()
      [⟨List.replicate 200 0x41#8, .copy⟩] .text :=
  @client_never_round_trips Unit halfAgain (fun _ _ _ _ _ => ((), [])) () _ .text (.inl rfl) (by
    rw [gathered, List.flatMap_singleton, List.length_replicate]
    decide)

/-- Of the greeting the decoder makes a key and waits for more. -/
theorem client_greeting_lost :
    ¬ @RoundTrips Unit halfAgain { onMessage := some fun _ _ _ _ _ => ((), []) } ()
      [⟨Zig.text "Hi", .static⟩] .text := by
  rintro ⟨last, out, isBinary, read, reported, -⟩
  have silent : (@processData Unit .server { onMessage := some fun _ _ _ _ _ => ((), []) } halfAgain
      (({} : WebSocketState), ()) (sentBytes (({} : WebSocketClient).writev .client [⟨Zig.text "Hi", .static⟩] .text))).map
        Prod.snd = .ok [] := by
    decide
  rw [read] at silent
  have nothing : out = [] := Except.ok.inj silent
  rw [nothing] at reported
  cases reported

end ZapeProof
