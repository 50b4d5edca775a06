import Zape.Machine.Delimited
import Zape.WebSocket.Framing
import Zape.WebSocket.Goodbye

/-! The other end of a server's connection: it takes unmasked frames off the stream of bytes that reaches it. -/
namespace ZapeProof

open Machine Zig ZapeModel ZapeModel.WebSocketState

section Reading

/-- The header byte of a frame with its payload. -/
abbrev WireFrame := Byte × List Byte

def readPayload (header : Byte) (length : Nat) (rest : List Byte) : Option (WireFrame × List Byte) :=
  if length ≤ rest.length then some ((header, rest.take length), rest.drop length) else none

def readExtended (header : Byte) (count : Nat) (rest : List Byte) : Option (WireFrame × List Byte) :=
  if count ≤ rest.length then readPayload header (bigEndian (rest.take count)) (rest.drop count) else none

/-- An RFC 6455 frame without a mask. -/
def readUnmasked : Reader Byte WireFrame
  | header :: length :: rest =>
    if length.toNat ≤ 125 then readPayload header length.toNat rest
    else if length = 126#8 then readExtended header 2 rest
    else if length = 127#8 then readExtended header 8 rest
    else none
  | _ => none

def unmaskedFrame (frame : WireFrame) : List Byte := frame.1 :: shortestLength frame.2.length ++ frame.2

theorem finalFrame_unmasked (opcode : OpCode) (payload : List Byte) :
    finalFrame opcode payload = unmaskedFrame (0x80#8 ||| opcode.toInt.setWidth 8, payload) := rfl

theorem readPayload_whole (header : Byte) (payload rest : List Byte) :
    readPayload header payload.length (payload ++ rest) = some ((header, payload), rest) := by
  rw [readPayload, if_pos (by simp), List.take_left, List.drop_left]

theorem readPayload_part (header : Byte) {payload stream missing : List Byte} (split : stream ++ missing = payload)
    (more : missing ≠ []) : readPayload header payload.length stream = none := by
  have positive := List.length_pos_iff.mpr more
  rw [readPayload, if_neg]
  rw [← split, List.length_append]
  omega

theorem readExtended_whole (header : Byte) {count : Nat} {payload : List Byte} (fits : payload.length < 256 ^ count)
    (rest : List Byte) :
    readExtended header count (bigEndianBytes count payload.length ++ payload ++ rest) =
      some ((header, payload), rest) := by
  have spelled := bigEndianBytes_length count payload.length
  rw [readExtended, List.append_assoc, if_pos (by simp), List.take_left' spelled, List.drop_left' spelled,
    bigEndian_bigEndianBytes fits, readPayload_whole]

theorem readExtended_part (header : Byte) {count : Nat} {payload stream missing : List Byte}
    (fits : payload.length < 256 ^ count)
    (split : stream ++ missing = bigEndianBytes count payload.length ++ payload) (more : missing ≠ []) :
    readExtended header count stream = none := by
  have spelled := bigEndianBytes_length count payload.length
  unfold readExtended
  by_cases known : count ≤ stream.length
  · rw [if_pos known]
    obtain ⟨begun, rfl⟩ : ∃ begun, stream = bigEndianBytes count payload.length ++ begun := by
      obtain ⟨begun, ended⟩ := List.prefix_of_prefix_length_le (List.prefix_append _ payload)
        (show stream <+: bigEndianBytes count payload.length ++ payload from ⟨missing, split⟩) (by omega)
      exact ⟨begun, ended.symm⟩
    rw [List.append_assoc, List.append_cancel_left_eq] at split
    rw [List.take_left' spelled, List.drop_left' spelled, bigEndian_bigEndianBytes fits]
    exact readPayload_part header split more
  · rw [if_neg known]

theorem readUnmasked_short {header : Byte} {length : Nat} (short : length ≤ 125) (rest : List Byte) :
    readUnmasked (header :: BitVec.ofNat 8 length :: rest) = readPayload header length rest := by
  have value : (BitVec.ofNat 8 length).toNat = length := by
    rw [BitVec.toNat_ofNat]
    omega
  rw [readUnmasked, value, if_pos short]

theorem readUnmasked_medium (header : Byte) (rest : List Byte) :
    readUnmasked (header :: 126#8 :: rest) = readExtended header 2 rest := rfl

theorem readUnmasked_long (header : Byte) (rest : List Byte) :
    readUnmasked (header :: 127#8 :: rest) = readExtended header 8 rest := rfl

/-- The frames of a server tell where they end. -/
theorem unmasked_delimits : Delimits readUnmasked unmaskedFrame fun frame => frame.2.length < 2 ^ 64 where
  whole := by
    rintro ⟨header, payload⟩ rest fits
    unfold unmaskedFrame shortestLength
    simp only at fits
    by_cases short : payload.length ≤ 125
    · rw [if_pos short]
      exact (readUnmasked_short short _).trans (readPayload_whole header payload rest)
    · rw [if_neg short]
      by_cases medium : payload.length < 2 ^ 16
      · rw [if_pos medium]
        have bound : payload.length < 256 ^ 2 := by omega
        exact (readUnmasked_medium header _).trans (readExtended_whole header bound rest)
      · rw [if_neg medium]
        have bound : payload.length < 256 ^ 8 := by omega
        exact (readUnmasked_long header _).trans (readExtended_whole header bound rest)
  part := by
    rintro ⟨header, payload⟩ stream missing fits split more
    simp only at fits
    match stream with
    | [] => rfl
    | [_] => rfl
    | first :: second :: stream =>
      unfold unmaskedFrame shortestLength at split
      by_cases short : payload.length ≤ 125
      · rw [if_pos short] at split
        simp only [List.cons_append, List.cons.injEq] at split
        obtain ⟨rfl, rfl, rest⟩ := split
        exact (readUnmasked_short short stream).trans (readPayload_part first rest more)
      · rw [if_neg short] at split
        by_cases medium : payload.length < 2 ^ 16
        · rw [if_pos medium] at split
          simp only [List.cons_append, List.cons.injEq] at split
          obtain ⟨rfl, rfl, rest⟩ := split
          have bound : payload.length < 256 ^ 2 := by omega
          exact (readUnmasked_medium first stream).trans (readExtended_part first bound rest more)
        · rw [if_neg medium] at split
          simp only [List.cons_append, List.cons.injEq] at split
          obtain ⟨rfl, rfl, rest⟩ := split
          have bound : payload.length < 256 ^ 8 := by omega
          exact (readUnmasked_long first stream).trans (readExtended_part first bound rest more)
  empty := rfl

end Reading

section Speaking

/-- Everything asked of the transport, in its order. -/
def transported (events : List Event) : List TransportCall :=
  events.flatMap fun
    | .frame _ calls => calls
    | .transport call => [call]
    | _ => []

theorem transported_append (left right : List Event) :
    transported (left ++ right) = transported left ++ transported right := List.flatMap_append

theorem transported_sent (events : List Event) : transported (events.filter sent) = transported events := by
  induction events with
  | nil => rfl
  | cons event events ih =>
    cases event with
    | frame opcode calls => exact congrArg (calls ++ ·) ih
    | transport call => exact congrArg ([call] ++ ·) ih
    | endMessage header items => exact ih
    | onMessage data isBinary frame => exact ih

/-- What one call says to the peer of an open connection. -/
def slices : ClientCall → List WebSocketData
  | .write data _ lifetime => [{ lifetime, data }]
  | .writev datav _ => datav
  | .ping data | .pong data => [{ lifetime := .copy, data }]
  | .close => []

/-- The calls that still find the connection open. -/
def spoken (calls : List ClientCall) : List ClientCall := calls.takeWhile (· ≠ .close)

def callFrame (call : ClientCall) : WireFrame :=
  (0x80#8 ||| (frameOpcode call).toInt.setWidth 8, gathered (slices call))

/-- One frame for each call, and a shutdown in the end when there was a close. -/
def saying (connectionType : WebSocketConnectionType) (calls : List ClientCall) : List TransportCall :=
  (spoken calls).flatMap (fun call => WebSocketClient.frameCalls connectionType (slices call) (frameOpcode call)) ++
    if .close ∈ calls then [.close .queue] else []

variable {connectionType : WebSocketConnectionType}

theorem perform_speaks {client : WebSocketClient} (opened : client.closed = false) {call : ClientCall}
    (noClose : call ≠ .close) :
    client.perform connectionType call =
      (client, [.frame (frameOpcode call) (WebSocketClient.frameCalls connectionType (slices call) (frameOpcode call))]) := by
  cases call with
  | close => exact absurd rfl noClose
  | write data opcode lifetime =>
    simp only [WebSocketClient.perform, WebSocketClient.write, WebSocketClient.writev, opened, frameOpcode, slices,
      Bool.false_eq_true, if_false]
  | writev datav opcode =>
    simp only [WebSocketClient.perform, WebSocketClient.writev, opened, frameOpcode, slices, Bool.false_eq_true, if_false]
  | ping data =>
    simp only [WebSocketClient.perform, WebSocketClient.ping, WebSocketClient.write, WebSocketClient.writev, opened,
      frameOpcode, slices, Bool.false_eq_true, if_false]
  | pong data =>
    simp only [WebSocketClient.perform, WebSocketClient.pong, WebSocketClient.write, WebSocketClient.writev, opened,
      frameOpcode, slices, Bool.false_eq_true, if_false]

theorem saying_cons {call : ClientCall} (noClose : call ≠ .close) (calls : List ClientCall) :
    saying connectionType (call :: calls) =
      WebSocketClient.frameCalls connectionType (slices call) (frameOpcode call) ++ saying connectionType calls := by
  have first : decide (call ≠ .close) = true := decide_eq_true noClose
  have later : .close ∈ call :: calls ↔ .close ∈ calls := by
    rw [List.mem_cons]
    exact or_iff_right (Ne.symm noClose)
  simp only [saying, spoken, List.takeWhile_cons, first, if_true, List.flatMap_cons, later, List.append_assoc]

theorem performAll_speaks {client : WebSocketClient} (opened : client.closed = false) (calls : List ClientCall) :
    transported (client.performAll connectionType calls).2 = saying connectionType calls := by
  induction calls with
  | nil => rfl
  | cons call calls ih =>
    by_cases close : call = .close
    · subst close
      have ended := WebSocketClient.close_events connectionType client
      rw [opened] at ended
      simp only [WebSocketClient.performAll, WebSocketClient.perform, ended, Bool.false_eq_true, if_false,
        WebSocketClient.performAll_of_closed connectionType rfl]
      simp [transported, saying, spoken]
    · have performed := @perform_speaks connectionType client opened call close
      rw [saying_cons close, ← ih]
      simp only [WebSocketClient.performAll, performed]
      rfl

theorem handed_close (calls : List ClientCall) :
    handed (if .close ∈ calls then [TransportCall.close .queue] else []) = [] := by
  split <;> rfl

theorem handed_frameCalls (datav : List WebSocketData) (opcode : OpCode)
    (fits : (gathered datav).length ≤ 0xFFFFFFFF) :
    handed (WebSocketClient.frameCalls .server datav opcode) = finalFrame opcode (gathered datav) := by
  have written : sentBytes (({} : WebSocketClient).writev .server datav opcode) =
      handed (WebSocketClient.frameCalls .server datav opcode) := List.append_nil _
  rw [← written, sent_writev rfl, head_short opcode fits]
  rfl

theorem handed_saying {calls : List ClientCall}
    (fits : ∀ call ∈ spoken calls, (gathered (slices call)).length ≤ 0xFFFFFFFF) :
    handed (saying .server calls) = ((spoken calls).map callFrame).flatMap unmaskedFrame := by
  rw [saying, handed_append, handed_close, List.append_nil, handed, List.flatMap_assoc, List.flatMap_map]
  apply List.flatMap_congr
  intro call member
  exact (handed_frameCalls (slices call) (frameOpcode call) (fits call member)).trans (finalFrame_unmasked _ _)

theorem callFrames_admitted {calls : List ClientCall}
    (fits : ∀ call ∈ spoken calls, (gathered (slices call)).length ≤ 0xFFFFFFFF) :
    ∀ frame ∈ (spoken calls).map callFrame, frame.2.length < 2 ^ 64 := by
  intro frame member
  obtain ⟨call, called, rfl⟩ := List.mem_map.mp member
  have bound := fits call called
  show (gathered (slices call)).length < 2 ^ 64
  omega

/-- Of any part of what is said the peer reads the frames that are whole. -/
theorem saying_progress {calls : List ClientCall}
    (fits : ∀ call ∈ spoken calls, (gathered (slices call)).length ≤ 0xFFFFFFFF) {stream : List Byte}
    (part : stream <+: handed (saying .server calls)) :
    StreamRead unmaskedFrame ((spoken calls).map callFrame) stream (readStream readUnmasked stream.length stream).1
      (readStream readUnmasked stream.length stream).2 := by
  rw [handed_saying fits] at part
  exact unmasked_delimits.readStream_progress (callFrames_admitted fits) part le_rfl

theorem saying_whole {calls : List ClientCall}
    (fits : ∀ call ∈ spoken calls, (gathered (slices call)).length ≤ 0xFFFFFFFF) :
    readStream readUnmasked (handed (saying .server calls)).length (handed (saying .server calls)) =
      ((spoken calls).map callFrame, []) := by
  rw [handed_saying fits]
  have admitted := callFrames_admitted fits
  exact unmasked_delimits.readStream_words admitted (unmasked_delimits.words_le_stream admitted)

theorem close_frameCalls (datav : List WebSocketData) (opcode : OpCode) (action : ShutdownAction) :
    .close action ∉ WebSocketClient.frameCalls connectionType datav opcode := by
  have head : ∀ length, .close action ∉ WebSocketClient.payloadHead connectionType opcode length := by
    intro length
    unfold WebSocketClient.payloadHead
    split_ifs <;> simp
  simp only [WebSocketClient.frameCalls, List.mem_append, List.mem_cons, head, List.not_mem_nil, or_false, false_or,
    reduceCtorEq]
  split <;> simp

theorem close_saying (calls : List ClientCall) : .close .queue ∈ saying connectionType calls ↔ .close ∈ calls := by
  have frames : .close .queue ∉ (spoken calls).flatMap fun call =>
      WebSocketClient.frameCalls connectionType (slices call) (frameOpcode call) := by
    rw [List.mem_flatMap]
    rintro ⟨call, -, member⟩
    exact close_frameCalls _ _ _ member
  rw [saying, List.mem_append, or_iff_right frames]
  split <;> simp_all

end Speaking

section Connection

variable {T : Type} [GrowthPolicy]

theorem transported_calls {callbacks : WebSocketCallbacks T} {context : T} {activities : List Activity}
    {last : WebSocketState × T} {out : List Event}
    (ran : run (activity .server callbacks) (({} : WebSocketState), context) activities = .ok (last, out)) :
    transported out = saying .server (callsOfRun .server callbacks context activities) := by
  have performed := run_performs (fun current => current.1.client) _ activity_performs ran
  have speaks := @performAll_speaks .server {} rfl (callsOfRun .server callbacks context activities)
  rw [← transported_sent, ← speaks]
  exact congrArg (fun result => transported result.2) performed.symm

/-- Whatever reaches a server and whatever the application asks of it: of any part of what the transport is given, the
    peer reads just the frames that are whole, in the order of the calls and each with the data of its call. -/
theorem peer_reads_calls (callbacks : WebSocketCallbacks T) (context : T) (activities : List Activity)
    (last : WebSocketState × T) (out : List Event)
    (ran : run (activity .server callbacks) (({} : WebSocketState), context) activities = .ok (last, out))
    (fits : ∀ call ∈ spoken (callsOfRun .server callbacks context activities),
      (gathered (slices call)).length ≤ 0xFFFFFFFF)
    (stream : List Byte) (part : stream <+: handed (transported out)) :
    StreamRead unmaskedFrame ((spoken (callsOfRun .server callbacks context activities)).map callFrame) stream
      (readStream readUnmasked stream.length stream).1 (readStream readUnmasked stream.length stream).2 := by
  rw [transported_calls ran] at part
  exact saying_progress fits part

end Connection

/-- Five bytes of a greeting and a ping: the greeting is whole, and of the ping there is one byte. -/
theorem peer_reads_calls_greeting :
    StreamRead unmaskedFrame [(0x81#8, text "Hi"), (0x89#8, [7#8])] [0x81#8, 2#8, 0x48#8, 0x69#8, 0x89#8]
      [(0x81#8, text "Hi")] [0x89#8] := by
  have fits : ∀ call ∈ spoken (@callsOfRun .server Unit {} halfAgain ()
      [.call (.write (text "Hi") .text .copy), .call (.ping [7#8])]), (gathered (slices call)).length ≤ 0xFFFFFFFF := by
    decide
  exact @peer_reads_calls Unit halfAgain {} () [.call (.write (text "Hi") .text .copy), .call (.ping [7#8])] _ _ rfl fits
    [0x81#8, 2#8, 0x48#8, 0x69#8, 0x89#8] (by decide)

end ZapeProof
