import Zape.WebSocket.Decoding
import Zape.WebSocket.Sending

/-! What a run shows around the close of the connection. -/
namespace ZapeProof

open Machine Zig ZapeModel ZapeModel.WebSocketState

section Quiet

/-- A Close frame has been completed, or `close()` has taken effect. -/
def closes : Event → Bool
  | .transport (.close .queue) => true
  | .endMessage header _ => OpCode.fromInt ((header &&& 0x0f#8).setWidth 4) = .close
  | _ => false

def QuietAfterClose (out : List Event) : Prop :=
  ∀ earlier event later, out = earlier ++ event :: later → closes event = true → messages later = []

/-- The same, of a run that begins on a connection that may be closed already. -/
def Quiet (closed : Prop) (out : List Event) : Prop := (closed → messages out = []) ∧ QuietAfterClose out

theorem quietAfterClose_cons (event : Event) (out : List Event) :
    QuietAfterClose (event :: out) ↔ (closes event = true → messages out = []) ∧ QuietAfterClose out := by
  constructor
  · intro quiet
    refine ⟨fun closed => quiet [] event out rfl closed, ?_⟩
    rintro earlier other later rfl
    exact quiet (event :: earlier) other later rfl
  · rintro ⟨head, tail⟩ earlier other later split
    cases earlier with
    | nil =>
      cases split
      exact head
    | cons first earlier =>
      cases split
      exact tail earlier other later rfl

theorem quiet_nil (closed : Prop) : Quiet closed [] := by
  refine ⟨fun _ => rfl, ?_⟩
  intro earlier event later split
  simp at split

theorem quiet_cons (closed : Prop) (event : Event) (out : List Event) :
    Quiet closed (event :: out) ↔
      (closed → messages [event] = []) ∧ Quiet (closed ∨ closes event = true) out := by
  have split : messages (event :: out) = messages [event] ++ messages out := messages_append [event] out
  rw [Quiet, Quiet, quietAfterClose_cons, split, List.append_eq_nil_iff]
  tauto

theorem quiet_append (closed : Prop) (left right : List Event) :
    Quiet closed (left ++ right) ↔
      Quiet closed left ∧ Quiet (closed ∨ ∃ event ∈ left, closes event = true) right := by
  induction left generalizing closed with
  | nil => simp [quiet_nil]
  | cons event left ih =>
    rw [List.cons_append, quiet_cons, quiet_cons, ih, and_assoc]
    simp only [List.mem_cons, exists_eq_or_imp, or_assoc]

theorem quiet_of_sent (closed : Prop) {events : List Event} (all : ∀ event ∈ events, sent event = true) :
    Quiet closed events := by
  refine ⟨fun _ => messages_of_sent all, ?_⟩
  rintro earlier event later rfl -
  exact messages_of_sent fun other member => all other (by simp [member])

theorem closes_of_sent {event : Event} (only : sent event = true) : closes event = true ↔ event = closing := by
  constructor
  · intro closed
    unfold closes at closed
    split at closed
    · rfl
    · cases only
    · cases closed
  · rintro rfl
    rfl

theorem closes_of_effects {client next : WebSocketClient} {events : List Event}
    (effected : Effects client next events) : (∃ event ∈ events, closes event = true) ↔ closing ∈ events := by
  constructor
  · rintro ⟨event, member, closed⟩
    rwa [← (closes_of_sent (effected.sent event member)).mp closed]
  · intro member
    exact ⟨closing, member, rfl⟩

/-- In a run, what each step keeps quiet is kept quiet together. -/
theorem run_quiet {ε σ ι : Type} {step : Transition ε σ ι Event} (closed : σ → Prop) (harmless : σ → ι → Prop)
    (single : ∀ state symbol next out, step state symbol = .ok (next, out) →
      (closed next ↔ closed state ∨ ∃ event ∈ out, closes event = true) ∧
        (Quiet (closed state) out ↔ harmless state symbol))
    {state last : σ} {symbols : List ι} {out : List Event} (h : run step state symbols = .ok (last, out)) :
    (closed last ↔ closed state ∨ ∃ event ∈ out, closes event = true) ∧
      (Quiet (closed state) out ↔ Always step harmless state symbols) := by
  induction symbols generalizing state out with
  | nil =>
    cases h
    simp [quiet_nil, Always]
  | cons symbol symbols ih =>
    obtain ⟨next, head, rest, first, others, rfl⟩ := andThen_cases h
    obtain ⟨closedNext, quietHead⟩ := single _ _ _ _ first
    obtain ⟨closedLast, quietRest⟩ := ih others
    constructor
    · rw [closedLast, closedNext]
      simp only [List.mem_append, or_assoc, or_and_right, exists_or]
    · rw [quiet_append, quietHead, ← closedNext, quietRest, always_cons_ok first]

end Quiet

section Bytes

variable {T : Type} (connectionType : WebSocketConnectionType) (callbacks : WebSocketCallbacks T)

/-- On a closed connection the byte completes no message that would be reported. -/
def Harmless (self : WebSocketState) (byte : Byte) : Prop :=
  self.client.closed = true → completes self byte = true → dataOpcode self.opcode = true →
    callbacks.onMessage = none

theorem dispatch_close_closed {decoder : WebSocketState} (context : T) (opcode : decoder.opcode = .close) :
    (decoder.dispatch connectionType callbacks context).1.closed = true := by
  simp only [dispatch, opcode, WebSocketClient.close_events]
  split
  · assumption
  · rfl

theorem quiet_report (closed : Prop) (decoder : WebSocketState) :
    Quiet closed (report callbacks decoder) ↔
      (closed → dataOpcode decoder.opcode = true → callbacks.onMessage = none) := by
  unfold report
  split
  · rename_i reported
    rw [quiet_cons]
    simp [quiet_nil, reported.1, Option.isSome_iff_ne_none.mp reported.2]
  · rename_i unreported
    have silent : dataOpcode decoder.opcode = true → callbacks.onMessage = none := by
      intro data
      simpa [data] using unreported
    exact iff_of_true (quiet_nil closed) fun _ => silent

variable {connectionType callbacks}

theorem endMessage_quiet (decoder : WebSocketState) (context : T) :
    ((decoder.endMessage connectionType callbacks context).1.1.client.closed = true ↔
      decoder.client.closed = true ∨
        ∃ event ∈ (decoder.endMessage connectionType callbacks context).2, closes event = true) ∧
    (Quiet (decoder.client.closed = true) (decoder.endMessage connectionType callbacks context).2 ↔
      (decoder.client.closed = true → dataOpcode decoder.opcode = true → callbacks.onMessage = none)) := by
  obtain ⟨effects, effected, events⟩ := dispatch_effects connectionType callbacks decoder context
  have whole : (decoder.endMessage connectionType callbacks context).2 =
      .endMessage decoder.frame.header decoder.buffer.items :: (report callbacks decoder ++ effects) := by
    rw [← events]
    rfl
  have client : (decoder.endMessage connectionType callbacks context).1.1.client =
      (decoder.dispatch connectionType callbacks context).1 := rfl
  have header (items : List Byte) : closes (.endMessage decoder.frame.header items) = true ↔
      decoder.opcode = .close := by simp [closes, opcode]
  have reported : ¬ ∃ event ∈ report callbacks decoder, closes event = true := by
    unfold report
    split <;> simp [closes]
  have ended : decoder.opcode = .close → decoder.client.closed = true ∨ closing ∈ effects := by
    intro opcode
    rw [← effected.closed]
    exact dispatch_close_closed connectionType callbacks context opcode
  rw [whole, client]
  constructor
  · rw [effected.closed]
    simp only [List.mem_cons, List.mem_append, or_and_right, exists_or, exists_eq_left, header, reported,
      closes_of_effects effected, false_or]
    tauto
  · have quietEffects (closed : Prop) : Quiet closed effects := quiet_of_sent closed effected.sent
    have silent : messages [.endMessage decoder.frame.header decoder.buffer.items] = [] := rfl
    rw [quiet_cons, quiet_append, header, quiet_report]
    simp only [silent, implies_true, true_and, quietEffects, and_true]
    constructor
    · intro quiet closed
      exact quiet (.inl closed)
    · rintro quiet (closed | opcode) data
      · exact quiet closed data
      · rw [opcode] at data
        cases data

variable [GrowthPolicy]

theorem processByte_quiet (state : WebSocketState × T) (byte : Byte) (next : WebSocketState × T) (out : List Event)
    (read : processByte connectionType callbacks state byte = .ok (next, out)) :
    (next.1.client.closed = true ↔ state.1.client.closed = true ∨ ∃ event ∈ out, closes event = true) ∧
      (Quiet (state.1.client.closed = true) out ↔ Harmless callbacks state.1 byte) := by
  obtain ⟨self, context⟩ := state
  unfold Harmless
  cases complete : completes self byte
  · obtain ⟨rfl, -, client, -⟩ := processByte_silent complete read
    simp [client, quiet_nil]
  · obtain ⟨client, header⟩ := ending_kept self byte
    have opcode : (ending self byte).opcode = self.opcode := by rw [WebSocketState.opcode, header]; rfl
    have quiet := @endMessage_quiet T connectionType callbacks (ending self byte) context
    have same := Except.ok.inj ((processByte_completes complete).symm.trans read)
    rw [same, client, opcode] at quiet
    simpa using quiet

/-- No read brings a byte that is not harmless. -/
def HarmlessActivity (connectionType : WebSocketConnectionType) (callbacks : WebSocketCallbacks T)
    (state : WebSocketState × T) : Activity → Prop
  | .read data =>
    Always (processByte connectionType callbacks) (fun current byte => Harmless callbacks current.1 byte) state data
  | .call _ => True

theorem activity_quiet (state : WebSocketState × T) (done : Activity) (next : WebSocketState × T) (out : List Event)
    (step : activity connectionType callbacks state done = .ok (next, out)) :
    (next.1.client.closed = true ↔ state.1.client.closed = true ∨ ∃ event ∈ out, closes event = true) ∧
      (Quiet (state.1.client.closed = true) out ↔ HarmlessActivity connectionType callbacks state done) := by
  cases done with
  | read data => exact run_quiet (fun current => current.1.client.closed = true) _ processByte_quiet step
  | call call =>
    obtain ⟨self, context⟩ := state
    have effected := perform_effects connectionType self.client call
    cases step
    exact ⟨effected.closed.trans (or_congr_right (closes_of_effects effected).symm),
      iff_of_true (quiet_of_sent _ effected.sent) trivial⟩

end Bytes

end ZapeProof
