import Zape.WebSocket.Delivery

/-! The type that is reported for the fragments of a message. -/
namespace ZapeProof

open Machine Zig ZapeModel ZapeModel.WebSocketState

/-- Frames that are a message in fragments, with control frames in between. -/
structure FragmentFrames (first : Frame) (between : List Frame) (last : Frame) : Prop where
  opened : first.fin = false ∧ (first.kind = .text ∨ first.kind = .binary)
  continued : ∀ frame ∈ between, dataOpcode frame.kind.opcode = true → frame.kind = .continuation ∧ frame.fin = false
  finished : last.fin = true ∧ last.kind = .continuation

section Fragments

variable {T : Type} {connectionType : WebSocketConnectionType} {callbacks : WebSocketCallbacks T} {first last : Frame}
  {between : List Frame}

theorem mem_readings {key : MaskingKey} {frames : List Frame} {frame : Frame} (member : frame ∈ frames) :
    ∃ payload, (frame, payload) ∈ readings key frames := by
  induction frames generalizing key with
  | nil => cases member
  | cons other frames ih =>
    rcases List.mem_cons.mp member with rfl | later
    · exact ⟨_, List.mem_cons_self⟩
    · obtain ⟨payload, inside⟩ := @ih (keyAfter key other) later
      exact ⟨payload, List.mem_cons_of_mem _ inside⟩

theorem frame_of_reading {key : MaskingKey} {frames : List Frame} {reading : Frame × List Byte}
    (member : reading ∈ readings key frames) : reading.1 ∈ frames := by
  induction frames generalizing key with
  | nil => cases member
  | cons other frames ih =>
    rcases List.mem_cons.mp member with rfl | later
    · exact List.mem_cons_self
    · exact List.mem_cons_of_mem _ (ih later)

/-- A report tells the type of the frame's own opcode, and a continuation has none. -/
theorem reported_type {key : MaskingKey} {frames : List Frame} {report : List Byte × Bool × FrameState}
    (member : report ∈ (readings key frames).filterMap reports) :
    ∃ frame ∈ frames, dataOpcode frame.kind.opcode = true ∧ report.2.1 = decide (frame.kind = .binary) := by
  obtain ⟨reading, inside, reported⟩ := List.mem_filterMap.mp member
  rw [reports] at reported
  split at reported
  · rename_i data
    cases reported
    exact ⟨reading.1, frame_of_reading inside, data, rfl⟩
  · cases reported

theorem reported_of_frame {key : MaskingKey} {frames : List Frame} {frame : Frame} (member : frame ∈ frames)
    (data : dataOpcode frame.kind.opcode = true) :
    ∃ report ∈ (readings key frames).filterMap reports, report.2.1 = decide (frame.kind = .binary) := by
  obtain ⟨payload, inside⟩ := @mem_readings key frames frame member
  refine ⟨(payload, decide (frame.kind = .binary), frameState frame), List.mem_filterMap.mpr ⟨_, inside, ?_⟩, rfl⟩
  rw [reports, if_pos data]

theorem types_iff (fragmented : FragmentFrames first between last) (key : MaskingKey) :
    (∀ report ∈ (readings key (first :: between ++ [last])).filterMap reports,
      report.2.1 = decide (first.kind = .binary)) ↔ first.kind = .text := by
  constructor
  · intro typed
    have data : dataOpcode last.kind.opcode = true := by
      rw [fragmented.finished.2]
      rfl
    obtain ⟨report, member, shown⟩ := @reported_of_frame key (first :: between ++ [last]) last (by simp) data
    have claimed := typed report member
    rw [shown, fragmented.finished.2] at claimed
    rcases fragmented.opened.2 with text | binary
    · exact text
    · rw [binary] at claimed
      cases claimed
  · intro text report member
    obtain ⟨frame, inside, data, shown⟩ := reported_type member
    rw [shown, text]
    rcases List.mem_append.mp inside with opening | closing
    · rcases List.mem_cons.mp opening with rfl | middle
      · rw [text]
      · rw [(fragmented.continued frame middle data).1]
        rfl
    · rw [List.mem_singleton.mp closing, fragmented.finished.2]
      rfl

variable [GrowthPolicy]

/-- Frames that the decoder can read, behind others, in whatever reads they arrive. -/
theorem wire_fragments_typed_iff (connectionType : WebSocketConnectionType)
    (onMessage : WebSocketClient → T → List Byte → Bool → FrameState → T × List ClientCall) (context : T)
    (history : List Frame) (first : Frame) (between : List Frame) (last : Frame) (fragmented : FragmentFrames first between last)
    (readable : ∀ frame ∈ history ++ (first :: between ++ [last]), frame.masked = true ∨ frame.form = .short)
    (reads pieces : List (List Byte)) (cutHistory : reads.flatten = history.flatMap Frame.wire)
    (cutMessage : pieces.flatten = (first :: between ++ [last]).flatMap Frame.wire) :
    ∃ middle earlier next out,
      run (processData connectionType { onMessage }) (({} : WebSocketState), context) reads = .ok (middle, earlier) ∧
      run (processData connectionType { onMessage }) middle pieces = .ok (next, out) ∧
      endMessages out ≠ [] ∧
      ((∀ report ∈ messages out, report.2.1 = decide (first.kind = .binary)) ↔ first.kind = .text) := by
  obtain ⟨middle, session, earlier, read, -, settled⟩ := @reads_deliver T connectionType { onMessage } _ _ _
    (between_fresh context) history fun frame member => readable frame (List.mem_append_left _ member)
  obtain ⟨next, sessionNext, out, read', delivered, -⟩ := @reads_deliver T connectionType { onMessage } _ middle session
    settled (first :: between ++ [last]) fun frame member => readable frame (List.mem_append_right _ member)
  have trace := run_deliver_trace delivered
  refine ⟨middle, earlier, next, out, ?_, ?_, ?_, ?_⟩
  · rw [← read, ← cutHistory]
    exact run_flatten _ _ reads
  · rw [← read', ← cutMessage]
    exact run_flatten _ _ pieces
  · rw [trace.ended]
    simp [readings]
  · rw [trace.reported]
    exact types_iff fragmented session.key

end Fragments

section Ended

def headerOpcode (header : Byte) : OpCode := OpCode.fromInt ((header &&& 0x0f#8).setWidth 4)

/-- The report that comes first, if it comes at once. -/
def nextReport : List Event → Option Bool
  | .onMessage _ isBinary _ :: _ => some isBinary
  | _ => none

/-- The frames that ended, each with the type that `on_message` was called with for it. -/
def endedFrames : List Event → List (Byte × Option Bool)
  | [] => []
  | .endMessage header _ :: events => (header, nextReport events) :: endedFrames events
  | _ :: events => endedFrames events

/-- The header bytes of a message in fragments, with control frames in between. -/
structure Fragmented (first : Byte) (between : List Byte) (last : Byte) : Prop where
  opened : first &&& 0x80#8 = 0#8 ∧ (headerOpcode first = .text ∨ headerOpcode first = .binary)
  continued : ∀ header ∈ between, dataOpcode (headerOpcode header) = true →
    headerOpcode header = .continuation ∧ header &&& 0x80#8 = 0#8
  finished : last &&& 0x80#8 = 0x80#8 ∧ headerOpcode last = .continuation

def TypedAlone (events : List Event) : Prop :=
  nextReport events = none ∧ ∀ ended ∈ endedFrames events,
    ended.2 = if dataOpcode (headerOpcode ended.1) then some (decide (headerOpcode ended.1 = .binary)) else none

theorem nextReport_append {left right : List Event} (silent : nextReport left = none) (silent' : nextReport right = none) :
    nextReport (left ++ right) = none := by
  cases left with
  | nil => exact silent'
  | cons event left =>
    cases event with
    | onMessage data isBinary frame => cases silent
    | _ => rfl

theorem endedFrames_append (left : List Event) {right : List Event} (silent : nextReport right = none) :
    endedFrames (left ++ right) = endedFrames left ++ endedFrames right := by
  induction left with
  | nil => rfl
  | cons event left ih =>
    cases event with
    | endMessage header items =>
      have next : nextReport (left ++ right) = nextReport left := by
        cases left with
        | nil => exact silent
        | cons event left => cases event <;> rfl
      simp only [List.cons_append, endedFrames, ih, next]
    | _ => exact ih

theorem typedAlone_append {left right : List Event} (typed : TypedAlone left) (typed' : TypedAlone right) :
    TypedAlone (left ++ right) := by
  refine ⟨nextReport_append typed.1 typed'.1, ?_⟩
  intro ended member
  rw [endedFrames_append left typed'.1] at member
  rcases List.mem_append.mp member with before | after
  · exact typed.2 ended before
  · exact typed'.2 ended after

theorem typedAlone_sent {events : List Event} (all : ∀ event ∈ events, sent event = true) :
    TypedAlone events ∧ endedFrames events = [] := by
  induction events with
  | nil => exact ⟨⟨rfl, by nofun⟩, rfl⟩
  | cons event events ih =>
    have later := ih fun event member => all event (List.mem_cons_of_mem _ member)
    have first := all event List.mem_cons_self
    cases event with
    | frame opcode calls => exact ⟨⟨rfl, later.1.2⟩, later.2⟩
    | transport call => exact ⟨⟨rfl, later.1.2⟩, later.2⟩
    | endMessage header items => cases first
    | onMessage data isBinary frame => cases first

theorem run_typed {ε σ ι : Type} {step : Transition ε σ ι Event} (invariant : σ → Prop)
    (single : ∀ state symbol next out, invariant state → step state symbol = .ok (next, out) →
      invariant next ∧ TypedAlone out)
    {state last : σ} {symbols : List ι} {out : List Event} (initial : invariant state)
    (ended : run step state symbols = .ok (last, out)) : invariant last ∧ TypedAlone out := by
  induction symbols generalizing state out with
  | nil =>
    cases ended
    exact ⟨initial, rfl, by nofun⟩
  | cons symbol symbols ih =>
    obtain ⟨next, head, rest, first, others, rfl⟩ := andThen_cases ended
    obtain ⟨kept, typed⟩ := single _ _ _ _ initial first
    obtain ⟨still, typed'⟩ := ih kept others
    exact ⟨still, typedAlone_append typed typed'⟩

variable {T : Type} {connectionType : WebSocketConnectionType}
  {onMessage : WebSocketClient → T → List Byte → Bool → FrameState → T × List ClientCall}

theorem endMessage_typed {decoder : WebSocketState} (previous : decoder.frame.prevheader = 0#8) (context : T) :
    (decoder.endMessage connectionType { onMessage } context).1.1.frame.prevheader = 0#8 ∧
      TypedAlone (decoder.endMessage connectionType { onMessage } context).2 := by
  refine ⟨previous, ?_⟩
  obtain ⟨effects, effected, events⟩ := dispatch_effects connectionType { onMessage } decoder context
  obtain ⟨quiet, nothing⟩ := typedAlone_sent effected.sent
  have binary : decoder.isBinary = decide (headerOpcode decoder.frame.header = .binary) := by
    rw [WebSocketState.isBinary, previous, WebSocketState.opcode, headerOpcode]
    simp
  have opcode : decoder.opcode = headerOpcode decoder.frame.header := rfl
  have whole : (decoder.endMessage connectionType { onMessage } context).2 =
      .endMessage decoder.frame.header decoder.buffer.items :: (report { onMessage := some onMessage } decoder ++ effects) := by
    rw [← events]
    rfl
  rw [whole, report, opcode]
  refine ⟨rfl, ?_⟩
  by_cases data : dataOpcode (headerOpcode decoder.frame.header) = true
  · rw [if_pos ⟨data, rfl⟩, binary]
    intro ended member
    have only : ended = (decoder.frame.header, some (decide (headerOpcode decoder.frame.header = .binary))) := by
      simpa [endedFrames, nextReport, nothing] using member
    rw [only, if_pos data]
  · rw [if_neg (fun both => data both.1), List.nil_append]
    intro ended member
    have only : ended = (decoder.frame.header, none) := by
      simpa [endedFrames, quiet.1, nothing] using member
    rw [only, if_neg data]

variable [GrowthPolicy]

/-- `prevheader` is never written. -/
theorem processByte_prevheader {callbacks : WebSocketCallbacks T} {self next : WebSocketState} {context contextNext : T}
    {byte : Byte} {out : List Event}
    (read : processByte connectionType callbacks (self, context) byte = .ok ((next, contextNext), out)) :
    next.frame.prevheader = self.frame.prevheader := by
  have ended : ∀ decoder : WebSocketState, (Except.ok (decoder.endMessage connectionType callbacks context) :
      Outcome Panic (WebSocketState × T) Event) = .ok ((next, contextNext), out) →
      next.frame.prevheader = decoder.frame.prevheader := by
    intro decoder same
    exact congrArg (fun result => result.1.1.frame.prevheader) (Except.ok.inj same).symm
  cases step : self.step <;> simp only [processByte, step] at read
  case stepStart =>
    cases read
    rfl
  case stepLength =>
    have second : (self.secondByte byte).frame.prevheader = self.frame.prevheader := by
      unfold secondByte
      split
      · rfl
      · split <;> rfl
    rw [← second]
    split at read
    · exact ended _ read
    · cases read
      rfl
  case stepKey =>
    split at read
    · split at read
      · have same := ended _ read
        exact same
      · cases read
        rfl
    · split at read
      · cases read
      · cases read
        rfl
  case stepData =>
    simp only [append_buffer_length] at read
    split at read
    · have same := ended _ read
      exact same
    · cases read
      rfl
  all_goals
    split at read
    · cases read
    · rename_i after lengthRead
      cases read
      unfold lengthByte at lengthRead
      obtain ⟨⟨length, doneReadingLength⟩, -, written⟩ := bind_ok lengthRead
      cases doneReadingLength
      · obtain ⟨lengthPos, -, written⟩ := bind_ok written
        cases written
        rfl
      · cases written
        rfl

theorem processByte_typed (state : WebSocketState × T) (byte : Byte) (next : WebSocketState × T) (out : List Event)
    (previous : state.1.frame.prevheader = 0#8)
    (read : processByte connectionType { onMessage } state byte = .ok (next, out)) :
    next.1.frame.prevheader = 0#8 ∧ TypedAlone out := by
  obtain ⟨self, context⟩ := state
  have kept := (processByte_prevheader read).trans previous
  refine ⟨kept, ?_⟩
  cases complete : completes self byte
  · obtain ⟨rfl, -, -, -⟩ := processByte_silent complete read
    exact ⟨rfl, by nofun⟩
  · have same := Except.ok.inj ((processByte_completes complete).symm.trans read)
    have before : (ending self byte).frame.prevheader = 0#8 := by
      rw [← kept]
      exact congrArg (fun result => result.1.1.frame.prevheader) same
    have typed := (@endMessage_typed T connectionType onMessage (ending self byte) before context).2
    rw [same] at typed
    exact typed

theorem activity_typed (state : WebSocketState × T) (done : Activity) (next : WebSocketState × T) (out : List Event)
    (previous : state.1.frame.prevheader = 0#8)
    (step : activity connectionType { onMessage } state done = .ok (next, out)) :
    next.1.frame.prevheader = 0#8 ∧ TypedAlone out := by
  cases done with
  | read data => exact run_typed (fun current => current.1.frame.prevheader = 0#8) processByte_typed previous step
  | call call =>
    obtain ⟨self, context⟩ := state
    have effected := perform_effects connectionType self.client call
    cases step
    exact ⟨previous, (typedAlone_sent effected.sent).1⟩

/-- Whatever is read, and whatever the application does meanwhile: for the fragments of a message `on_message` tells the
    type of the first one just if that is a text. -/
theorem fragments_typed_iff (connectionType : WebSocketConnectionType)
    (onMessage : WebSocketClient → T → List Byte → Bool → FrameState → T × List ClientCall) (context : T)
    (activities : List Activity) (last : WebSocketState × T) (out : List Event)
    (ended : run (activity connectionType { onMessage }) (({} : WebSocketState), context) activities = .ok (last, out))
    (earlier later between : List (Byte × Option Bool)) (first final : Byte × Option Bool)
    (message : endedFrames out = earlier ++ (first :: between ++ [final]) ++ later)
    (fragmented : Fragmented first.1 (between.map Prod.fst) final.1) :
    (∀ fragment ∈ first :: between ++ [final], ∀ isBinary, fragment.2 = some isBinary →
      isBinary = decide (headerOpcode first.1 = .binary)) ↔ headerOpcode first.1 = .text := by
  have typed := (run_typed (fun current => current.1.frame.prevheader = 0#8) activity_typed rfl ended).2.2
  have alone : ∀ fragment ∈ first :: between ++ [final], fragment.2 =
      if dataOpcode (headerOpcode fragment.1) then some (decide (headerOpcode fragment.1 = .binary)) else none := by
    intro fragment member
    apply typed fragment
    rw [message]
    exact List.mem_append_left _ (List.mem_append_right _ member)
  have closing := alone final (by simp)
  rw [fragmented.finished.2] at closing
  constructor
  · intro same
    have claimed := same final (by simp) false closing
    rcases fragmented.opened.2 with text | binary
    · exact text
    · rw [binary] at claimed
      cases claimed
  · intro text fragment member isBinary reported
    rw [alone fragment member] at reported
    split at reported
    · rename_i data
      cases reported
      rw [text]
      rcases List.mem_append.mp member with opening | closing
      · rcases List.mem_cons.mp opening with rfl | middle
        · rw [text]
        · rw [(fragmented.continued fragment.1 (List.mem_map_of_mem middle) data).1]
          rfl
      · rw [List.mem_singleton.mp closing, fragmented.finished.2]
        rfl
    · cases reported

end Ended

/-- A text in two fragments with a ping in between. -/
theorem text_fragments_typed :
    ∃ last out, run (@activity Unit halfAgain .server { onMessage := some fun _ _ _ _ _ => ((), []) })
        (({} : WebSocketState), ())
        [.read [0x01#8, 0x81#8, 0#8, 0#8, 0#8, 0#8, 0x41#8, 0x89#8, 0x80#8, 0#8, 0#8],
          .read [0#8, 0#8, 0x80#8, 0x81#8, 0#8, 0#8, 0#8, 0#8, 0x42#8]] = .ok (last, out) ∧
      endedFrames out = [(0x01#8, some false), (0x89#8, none), (0x80#8, some false)] ∧
      ∀ fragment ∈ endedFrames out, ∀ isBinary, fragment.2 = some isBinary → isBinary = false := by
  obtain ⟨last, out, reached, ended⟩ :
      ∃ last out, run (@activity Unit halfAgain .server { onMessage := some fun _ _ _ _ _ => ((), []) })
          (({} : WebSocketState), ())
          [.read [0x01#8, 0x81#8, 0#8, 0#8, 0#8, 0#8, 0x41#8, 0x89#8, 0x80#8, 0#8, 0#8],
            .read [0#8, 0#8, 0x80#8, 0x81#8, 0#8, 0#8, 0#8, 0#8, 0x42#8]] = .ok (last, out) ∧
        endedFrames out = [(0x01#8, some false), (0x89#8, none), (0x80#8, some false)] :=
    ⟨_, [.endMessage 0x01#8 [0x41#8], .onMessage [0x41#8] false .frameStart, .endMessage 0x89#8 [],
      .frame .pong (WebSocketClient.frameCalls .server [{ data := [], lifetime := .copy }] .pong),
      .endMessage 0x80#8 [0x42#8], .onMessage [0x42#8] false .frameFinish], rfl, rfl⟩
  refine ⟨last, out, reached, ended, ?_⟩
  rw [ended]
  exact (@fragments_typed_iff Unit halfAgain .server _ () _ last out reached [] [] [(0x89#8, none)] (0x01#8, some false)
    (0x80#8, some false) ended { opened := by decide, continued := by decide, finished := by decide }).mpr (by decide)

/-- The second fragment of a binary message is reported as text. -/
theorem binary_fragment_as_text :
    ∃ last out, run (@activity Unit halfAgain .server { onMessage := some fun _ _ _ _ _ => ((), []) })
        (({} : WebSocketState), ())
        [.read [0x02#8, 0x81#8, 0#8, 0#8, 0#8, 0#8, 0x41#8, 0x80#8, 0x81#8, 0#8, 0#8, 0#8, 0#8, 0x42#8]] = .ok (last, out) ∧
      endedFrames out = [(0x02#8, some true), (0x80#8, some false)] ∧ Fragmented 0x02#8 [] 0x80#8 ∧
      ¬ ∀ fragment ∈ endedFrames out, ∀ isBinary, fragment.2 = some isBinary →
        isBinary = decide (headerOpcode 0x02#8 = .binary) := by
  refine ⟨_, [.endMessage 0x02#8 [0x41#8], .onMessage [0x41#8] true .frameStart,
    .endMessage 0x80#8 [0x42#8], .onMessage [0x42#8] false .frameFinish], rfl, rfl,
    { opened := by decide, continued := by decide, finished := by decide }, ?_⟩
  intro typed
  cases typed (0x80#8, some false) (by decide) false rfl

end ZapeProof
