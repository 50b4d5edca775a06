import Zape.WebSocket.Decoding
import Zape.WebSocket.Sending

/-! The Close frame a closing connection owes its peer. -/
namespace ZapeProof

open Machine Zig ZapeModel ZapeModel.WebSocketState

section Frames

/-- Once the shutdown is requested: one Close frame went out before it, and no other frame behind it. -/
def ClosesProperly (out : List Event) : Prop :=
  closing ∈ out → ∃ earlier calls later, out = earlier ++ .frame .close calls :: later ∧
    .close ∉ written earlier ∧ written later = [] ∧ closing ∈ later

theorem written_sent (out : List Event) : written (out.filter sent) = written out := by
  rw [written, written, List.filterMap_filter]
  congr 1
  funext event
  cases event <;> rfl

theorem closesProperly_sent (out : List Event) : ClosesProperly (out.filter sent) ↔ ClosesProperly out := by
  have asked : closing ∈ out.filter sent ↔ closing ∈ out := by simp [closing, sent]
  rw [ClosesProperly, ClosesProperly, asked]
  constructor
  · intro proper shutdown
    obtain ⟨earlier, calls, later, split, none, quiet, behind⟩ := proper shutdown
    obtain ⟨front, back, rfl, rfl, rest⟩ := List.filter_eq_append_iff.mp split
    obtain ⟨between, last, rfl, unsent, -, rfl⟩ := List.filter_eq_cons_iff.mp rest
    have silent : between.filter sent = [] := List.filter_eq_nil_iff.mpr unsent
    refine ⟨front ++ between, calls, last, by simp, ?_, ?_, (List.mem_filter.mp behind).1⟩
    · rwa [← written_sent, List.filter_append, silent, List.append_nil]
    · rwa [written_sent] at quiet
  · intro proper shutdown
    obtain ⟨earlier, calls, later, rfl, none, quiet, behind⟩ := proper shutdown
    have kept : sent (.frame .close calls) = true := rfl
    refine ⟨earlier.filter sent, calls, later.filter sent, ?_, ?_, ?_, by simpa [closing, sent] using behind⟩
    · rw [List.filter_append, List.filter_cons_of_pos kept]
    · rwa [written_sent]
    · rwa [written_sent]

theorem closesProperly_closing (events : List Event) :
    ClosesProperly (events ++ [closing]) ↔
      ∃ others, written events = others ++ [.close] ∧ .close ∉ others := by
  constructor
  · intro proper
    obtain ⟨earlier, calls, later, split, none, quiet, behind⟩ := proper (by simp)
    have nonempty : later ≠ [] := List.ne_nil_of_mem behind
    have front : events = earlier ++ .frame .close calls :: later.dropLast := by
      have cut := congrArg List.dropLast split
      rwa [List.dropLast_concat, List.dropLast_append_cons, List.dropLast_cons_of_ne_nil nonempty] at cut
    have last : written later.dropLast = [] := by
      have both := congrArg written (List.dropLast_append_getLast nonempty)
      rw [quiet, written_append, List.append_eq_nil_iff] at both
      exact both.1
    refine ⟨written earlier, ?_, none⟩
    rw [front, written_append]
    exact congrArg (written earlier ++ .close :: ·) last
  · rintro ⟨others, split, none⟩ -
    obtain ⟨front, back, rfl, rfl, rest⟩ := List.filterMap_eq_append_iff.mp split
    obtain ⟨between, event, later, rfl, unwritten, isClose, quiet⟩ := List.filterMap_eq_cons_iff.mp rest
    obtain ⟨calls, rfl⟩ : ∃ calls, event = .frame .close calls := by
      cases event with
      | frame opcode calls =>
        cases isClose
        exact ⟨calls, rfl⟩
      | endMessage | onMessage | transport => cases isClose
    have silent : written between = [] := List.filterMap_eq_nil_iff.mpr unwritten
    refine ⟨front ++ between, calls, later ++ [closing], by simp, ?_, ?_, by simp⟩
    · rw [written_append, silent, List.append_nil]
      exact none
    · rw [written_append]
      exact congrArg (· ++ []) quiet

end Frames

section Calls

def frameOpcode : ClientCall → OpCode
  | .write _ opcode _ | .writev _ opcode => opcode
  | .ping _ => .ping
  | .pong _ => .pong
  | .close => .close

/-- Of the calls before the first `close()`, the last and no other asks for a Close frame. -/
def SaysGoodbye (calls : List ClientCall) : Prop :=
  .close ∈ calls →
    ∃ others, (calls.takeWhile (· ≠ .close)).map frameOpcode = others ++ [.close] ∧ .close ∉ others

variable {connectionType : WebSocketConnectionType}

theorem performAll_append (client : WebSocketClient) (left right : List ClientCall) :
    client.performAll connectionType (left ++ right) =
      let (next, events) := client.performAll connectionType left
      let (last, rest) := next.performAll connectionType right
      (last, events ++ rest) := by
  induction left generalizing client with
  | nil => rfl
  | cons call left ih => simp only [List.cons_append, WebSocketClient.performAll, ih, List.append_assoc]

/-- On an open connection every call other than `close()` hands one frame to the transport. -/
theorem perform_open {client : WebSocketClient} (opened : client.closed = false) {call : ClientCall}
    (noClose : call ≠ .close) :
    ∃ parts, client.perform connectionType call = (client, [.frame (frameOpcode call) parts]) := by
  cases call with
  | close => exact absurd rfl noClose
  | write data opcode lifetime =>
    simp [WebSocketClient.perform, WebSocketClient.write, WebSocketClient.writev, opened, frameOpcode]
  | writev datav opcode => simp [WebSocketClient.perform, WebSocketClient.writev, opened, frameOpcode]
  | ping data =>
    simp [WebSocketClient.perform, WebSocketClient.ping, WebSocketClient.write, WebSocketClient.writev, opened,
      frameOpcode]
  | pong data =>
    simp [WebSocketClient.perform, WebSocketClient.pong, WebSocketClient.write, WebSocketClient.writev, opened,
      frameOpcode]

theorem performAll_open {client : WebSocketClient} (opened : client.closed = false) {calls : List ClientCall}
    (noClose : .close ∉ calls) :
    ∃ events, client.performAll connectionType calls = (client, events) ∧
      written events = calls.map frameOpcode ∧ closing ∉ events := by
  induction calls with
  | nil => exact ⟨[], rfl, rfl, by simp⟩
  | cons call calls ih =>
    rw [List.mem_cons, not_or] at noClose
    obtain ⟨parts, performed⟩ := @perform_open connectionType client opened call (Ne.symm noClose.1)
    obtain ⟨events, others, opcodes, absent⟩ := ih noClose.2
    refine ⟨.frame (frameOpcode call) parts :: events, ?_, ?_, ?_⟩
    · simp only [WebSocketClient.performAll, performed, others, List.singleton_append]
    · exact congrArg (frameOpcode call :: ·) opcodes
    · rw [List.mem_cons, not_or]
      exact ⟨by simp [closing], absent⟩

theorem performAll_proper {client : WebSocketClient} (opened : client.closed = false) (calls : List ClientCall) :
    ClosesProperly (client.performAll connectionType calls).2 ↔ SaysGoodbye calls := by
  by_cases asked : .close ∈ calls
  · obtain ⟨before, after, rfl, first⟩ := List.eq_append_cons_of_mem asked
    obtain ⟨events, performed, opcodes, -⟩ := @performAll_open connectionType client opened before first
    have closed : client.perform connectionType .close = ({ closed := true }, [closing]) := by
      rw [WebSocketClient.perform, WebSocketClient.close_events, opened]
      rfl
    have rest : (client.performAll connectionType (before ++ .close :: after)).2 = events ++ [closing] := by
      rw [performAll_append, performed]
      simp only [WebSocketClient.performAll, closed, WebSocketClient.performAll_of_closed, List.append_nil]
    have others : ∀ call ∈ before, decide (call ≠ .close) = true := by
      intro call member
      rw [decide_eq_true_eq]
      rintro rfl
      exact first member
    have taken : (before ++ .close :: after).takeWhile (· ≠ .close) = before := by
      rw [List.takeWhile_append_of_pos others]
      simp
    rw [rest, closesProperly_closing, opcodes, SaysGoodbye, taken]
    simp
  · obtain ⟨events, performed, -, absent⟩ := @performAll_open connectionType client opened calls asked
    rw [performed]
    exact iff_of_true (fun shutdown => absurd shutdown absent) fun shutdown => absurd shutdown asked

end Calls

section Runs

variable {connectionType : WebSocketConnectionType}

theorem run_performs {ε σ ι : Type} {step : Transition ε σ ι Event} (client : σ → WebSocketClient)
    (calls : σ → ι → List ClientCall)
    (single : ∀ state symbol next out, step state symbol = .ok (next, out) →
      (client state).performAll connectionType (calls state symbol) = (client next, out.filter sent))
    {state last : σ} {symbols : List ι} {out : List Event} (h : run step state symbols = .ok (last, out)) :
    (client state).performAll connectionType (collect step calls state symbols) = (client last, out.filter sent) := by
  induction symbols generalizing state out with
  | nil =>
    cases h
    rfl
  | cons symbol symbols ih =>
    obtain ⟨next, head, rest, first, others, rfl⟩ := andThen_cases h
    rw [collect_cons_ok first, performAll_append, single _ _ _ _ first]
    simp only [ih others, List.filter_append]

theorem filter_sent_eq {client next : WebSocketClient} {events : List Event} (effected : Effects client next events) :
    events.filter sent = events := List.filter_eq_self.mpr effected.sent

variable {T : Type} {callbacks : WebSocketCallbacks T}

theorem endMessage_performs (decoder : WebSocketState) (context : T) :
    decoder.client.performAll connectionType (requests callbacks decoder context) =
      ((decoder.endMessage connectionType callbacks context).1.1.client,
        (decoder.endMessage connectionType callbacks context).2.filter sent) := by
  obtain ⟨client, events⟩ := dispatch_requests connectionType callbacks decoder context
  have whole : (decoder.endMessage connectionType callbacks context).2 = .endMessage decoder.frame.header
      decoder.buffer.items :: (decoder.dispatch connectionType callbacks context).2.2 := rfl
  have unsent : (report callbacks decoder).filter sent = [] := by
    unfold report
    split <;> rfl
  have ended : sent (.endMessage decoder.frame.header decoder.buffer.items) ≠ true := by simp [sent]
  rw [whole, events, List.filter_cons_of_neg ended, List.filter_append, unsent, List.nil_append,
    filter_sent_eq (performAll_effects connectionType decoder.client _)]
  exact Prod.ext client.symm rfl

variable [GrowthPolicy] (connectionType) (callbacks)

def callsOfByte (state : WebSocketState × T) (byte : Byte) : List ClientCall :=
  if completes state.1 byte then requests callbacks (ending state.1 byte) state.2 else []

def callsOfActivity (state : WebSocketState × T) : Activity → List ClientCall
  | .read data => collect (processByte connectionType callbacks) (callsOfByte callbacks) state data
  | .call call => [call]

/-- All calls made on the client in a run, by the application and by the protocol. -/
def callsOfRun (context : T) (activities : List Activity) : List ClientCall :=
  collect (activity connectionType callbacks) (callsOfActivity connectionType callbacks)
    (({} : WebSocketState), context) activities

variable {connectionType callbacks}

theorem processByte_performs (state : WebSocketState × T) (byte : Byte) (next : WebSocketState × T) (out : List Event)
    (read : processByte connectionType callbacks state byte = .ok (next, out)) :
    state.1.client.performAll connectionType (callsOfByte callbacks state byte) = (next.1.client, out.filter sent) := by
  obtain ⟨self, context⟩ := state
  unfold callsOfByte
  cases complete : completes self byte
  · obtain ⟨rfl, -, client, -⟩ := processByte_silent complete read
    simp [WebSocketClient.performAll, client]
  · have same := Except.ok.inj ((processByte_completes complete).symm.trans read)
    have performed := @endMessage_performs connectionType T callbacks (ending self byte) context
    rw [same, (ending_kept self byte).1] at performed
    exact performed

theorem activity_performs (state : WebSocketState × T) (done : Activity) (next : WebSocketState × T) (out : List Event)
    (step : activity connectionType callbacks state done = .ok (next, out)) :
    state.1.client.performAll connectionType (callsOfActivity connectionType callbacks state done) =
      (next.1.client, out.filter sent) := by
  cases done with
  | read data => exact run_performs (fun current => current.1.client) _ processByte_performs step
  | call call =>
    obtain ⟨self, context⟩ := state
    have effected := perform_effects connectionType self.client call
    have called : activity connectionType callbacks (self, context) (.call call) =
      .ok (({ self with client := (self.client.perform connectionType call).1 }, context),
        (self.client.perform connectionType call).2) := rfl
    cases called.symm.trans step
    simp only [callsOfActivity, WebSocketClient.performAll, filter_sent_eq effected, List.append_nil]

/-- A closing connection says goodbye to its peer exactly when the application does so itself. -/
theorem closes_properly_iff (connectionType : WebSocketConnectionType) (callbacks : WebSocketCallbacks T)
    (context : T) (activities : List Activity) (last : WebSocketState × T) (out : List Event)
    (h : run (activity connectionType callbacks) (({} : WebSocketState), context) activities = .ok (last, out)) :
    ClosesProperly out ↔ SaysGoodbye (callsOfRun connectionType callbacks context activities) := by
  have performed := run_performs (fun current => current.1.client) _ activity_performs h
  rw [← closesProperly_sent, ← @performAll_proper connectionType {} rfl]
  exact iff_of_eq (congrArg (fun result => ClosesProperly result.2) performed.symm)

end Runs

/-- The application writes its own Close frame and then closes. -/
theorem closes_properly_after_goodbye :
    ClosesProperly [.frame .close (WebSocketClient.frameCalls .server [{ data := [], lifetime := .static }] .close),
      closing] :=
  (@closes_properly_iff Unit halfAgain .server {} () [.call (.write [] .close .static), .call .close] _ _ rfl).mpr
    fun _ => ⟨[], rfl, by simp⟩

theorem close_without_frame :
    ∃ last out, run (@activity Unit halfAgain .server {}) (({} : WebSocketState), ()) [.call .close] =
        .ok (last, out) ∧ ¬ ClosesProperly out := by
  refine ⟨_, [closing], rfl, ?_⟩
  intro proper
  obtain ⟨others, split, -⟩ := (closesProperly_closing []).mp proper
  simp at split

end ZapeProof
