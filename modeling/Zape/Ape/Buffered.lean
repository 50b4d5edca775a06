import Mathlib.Data.List.Forall2
import Zape.Ape.Receiving

/-! The machine of a connection whose socket is read into `data_in`. -/
namespace ZapeModel

open Machine

namespace Receiver

/-- What was done to the socket, beside its `data_in`. -/
def beside (receiver : Receiver) (done : Except Stop Connection) : Except ReceiveStop Receiver :=
  (done.mapError .stop).map fun connection => { receiver with connection }

section Loop

variable (kernel : Kernel) (maxChunks fuel : Nat)

/-- `ape_socket_read` of a plain socket, with what its callbacks call. -/
def readPlain (receiver : Receiver) (event : LoopEvent) : Except ReceiveStop (Receiver × Int) :=
  (receiver.apeSocketRead kernel (fun _ => .failed) fuel false
    { arriving := event.reads
      onRead := fun data connection => connection.callback kernel maxChunks fuel connection.callbacks.onRead
        (.onRead (data.map (·.getD 0#8))) event.onRead
      onDisconnect := fun connection => connection.performAll kernel maxChunks fuel event.onDisconnect }).map Prod.fst

def reading (receiver : Receiver) (event : LoopEvent) : Except ReceiveStop (Receiver × Int) :=
  if event.readable then
    match receiver.connection.proto with
    | .tcp => receiver.readPlain kernel maxChunks fuel event
    | .udp => (receiver.beside (receiver.connection.apeSocketReadUdp kernel maxChunks fuel event.datagrams)).map (·, 0)
  else .ok (receiver, 0)

/-- What `APE_loop_run` does with an event of a socket of the `CLIENT` type. -/
def dispatch (receiver : Receiver) (event : LoopEvent) : Except ReceiveStop Receiver :=
  let ready := if event.writable then { receiver with connection := receiver.connection.unblock } else receiver
  (ready.reading kernel maxChunks fuel event).bind fun result =>
    if result.2 ≠ -1 ∧ event.writable then result.1.beside (result.1.connection.writable kernel maxChunks fuel event)
    else .ok result.1

/-- Only an event that can be read is concerned with `data_in`. -/
def loopStep (receiver : Receiver) : ConnectionStep → Except ReceiveStop Receiver
  | .event event =>
    if receiver.connection.freed ∨ receiver.connection.client = false ∨ receiver.connection.idle = false then .ok receiver
    else receiver.dispatch kernel maxChunks fuel event
  | step => receiver.beside (receiver.connection.step kernel maxChunks fuel step)

end Loop

end Receiver

end ZapeModel

namespace ZapeProof

open Machine ZapeModel

/-- The same step, or the same event whose bytes come in other parts. -/
inductive Recut : ConnectionStep → ConnectionStep → Prop
  | same (step : ConnectionStep) : Recut step step
  | event (event : LoopEvent) (cut : List ReadReply) (data : (receive cut).data = (receive event.reads).data)
      (last : (receive cut).last = (receive event.reads).last) : Recut (.event event) (.event { event with reads := cut })

section Answers

variable {replies : List ReadReply} {last : ReadReply}

/-- Answers of which only the last says that there is no more are taken as they come. -/
theorem receive_answers (goes : ∀ reply ∈ replies, exhausts reply = false) (ends : exhausts last = true) :
    receive (replies ++ [last]) = { data := replies.flatMap replyBytes, replies := replies ++ [last], last } := by
  induction replies with
  | nil =>
    cases last with
    | again | failed => rfl
    | interrupted => cases ends
    | bytes data =>
      cases data with
      | nil => rfl
      | cons byte bytes => cases ends
  | cons reply replies ih =>
    have later := ih fun other member => goes other (List.mem_cons_of_mem _ member)
    have here := goes reply List.mem_cons_self
    cases reply with
    | again | failed => cases here
    | interrupted =>
      rw [List.cons_append, receive, later]
      rfl
    | bytes data =>
      cases data with
      | nil => cases here
      | cons byte bytes =>
        rw [List.cons_append, receive, later]
        rfl

theorem fill_goes (state : Filling) (goes : ∀ call ∈ state.reads, exhausts call.2 = false) :
    (∃ next, fillTurn false state = .again next ∧ ∀ call ∈ next.reads, exhausts call.2 = false) ∨
      ∃ result, fillTurn false state = .done result ∧ ∀ filling last, result = .ok (filling, last) →
        ∃ replies, filling.reads.map Prod.snd = replies ++ [last] ∧ (∀ reply ∈ replies, exhausts reply = false) ∧
          exhausts last = true := by
  generalize prepared : (if state.again then state.dataIn else state.dataIn.bufferPrepare 2048#64) = b
  rcases answered : readReply false (b.size - b.used) state.arriving with ⟨reply, later⟩
  have turn := fillTurn_eq prepared answered
  have more : exhausts reply = false → ∀ call ∈ state.reads ++ [(b.size - b.used, reply)], exhausts call.2 = false := by
    intro unexhausted call member
    rcases List.mem_append.mp member with before | here
    · exact goes call before
    · cases List.mem_singleton.mp here
      exact unexhausted
  cases ends : exhausts reply with
  | true =>
    refine .inr ⟨_, turn.trans (afterRead_ends (.inl ends)), ?_⟩
    rintro filling last ⟨⟩
    refine ⟨state.reads.map Prod.snd, by rw [List.map_append]; rfl, ?_, ends⟩
    intro reply member
    obtain ⟨call, inside, rfl⟩ := List.mem_map.mp member
    exact goes call inside
  | false =>
    cases reply with
    | again | failed => cases ends
    | interrupted => exact .inl ⟨_, turn, more ends⟩
    | bytes data =>
      cases data with
      | nil => cases ends
      | cons byte bytes =>
        cases written : b.write b.used (byte :: bytes) with
        | error failure =>
          refine .inr ⟨.error failure, ?_, fun _ _ ok => by cases ok⟩
          rw [turn]
          simp only [afterRead, written]
        | ok next =>
          exact .inl ⟨_, turn.trans (afterRead_bytes (List.cons_ne_nil byte bytes) written), more ends⟩

/-- The calls of a loop on a plain socket end with the answer that says that there is no more. -/
theorem fill_answers {dataIn : PlainBuffer} {arriving : List ReadReply} {filling : Filling}
    (filled : fillDataIn false dataIn arriving = .ok (filling, last)) :
    ∃ replies, filling.reads.map Prod.snd = replies ++ [last] ∧ (∀ reply ∈ replies, exhausts reply = false) ∧
      exhausts last = true := by
  unfold fillDataIn at filled
  cases returned : loop (fillTurn false) (callsFor arriving + 1) { dataIn, arriving } with
  | none =>
    rw [returned] at filled
    cases filled
  | some result =>
    rw [returned] at filled
    obtain rfl : result = .ok (filling, last) := filled
    have ends := @loop_result Filling (Except AppendFailure (Filling × ReadReply)) (fillTurn false) { dataIn, arriving }
      (fun state => ∀ call ∈ state.reads, exhausts call.2 = false)
      (fun result => ∀ filling last, result = .ok (filling, last) → ∃ replies,
        filling.reads.map Prod.snd = replies ++ [last] ∧ (∀ reply ∈ replies, exhausts reply = false) ∧ exhausts last = true)
      fill_goes _ _ (fun call member => by cases member) returned
    exact ends filling last rfl

end Answers

section Refine

variable {kernel : Kernel} {maxChunks fuel : Nat} {receiver next : Receiver} {event : LoopEvent}

/-- No event brings as many bytes as a `size_t` can count. -/
def Countable (event : LoopEvent) : Prop := (receive event.reads).data.length + 4096 ≤ readLimit false

/-- Between two events nothing waits in `data_in`. -/
structure Empty (receiver : Receiver) : Prop where
  begins : BeginsWith receiver.dataIn []
  most : receiver.dataIn.size.toNat ≤ readLimit false

theorem some_getD (data : List Byte) : (data.map some).map (·.getD 0#8) = data := by
  rw [List.map_map]
  exact List.map_id data

theorem passOn_refines {data : List Byte} (begins : BeginsWith receiver.dataIn data)
    (online : receiver.connection.state = .online) {onRead : List (Option Byte) → Connection → Except Stop Connection}
    (silent : receiver.connection.callbacks.onRead = false →
      onRead (data.map some) receiver.connection = .ok receiver.connection) :
    (∃ stop, receiver.passOn onRead = .error (.stop stop) ∧ data ≠ [] ∧
      onRead (data.map some) receiver.connection = .error stop) ∨
      ∃ next shown, receiver.passOn onRead = .ok (next, shown) ∧
        (if data ≠ [] then onRead (data.map some) receiver.connection else .ok receiver.connection) = .ok next.connection ∧
        BeginsWith next.dataIn [] ∧ next.dataIn.size = receiver.dataIn.size := by
  unfold Receiver.passOn
  by_cases none : data = []
  · rw [if_pos ((begins_used begins).mpr none), if_neg (not_not.mpr none)]
    exact .inr ⟨receiver, [], rfl, rfl, none ▸ begins, rfl⟩
  · rw [if_neg fun zero => none ((begins_used begins).mp zero), if_pos none, begins.contents none]
    by_cases set : receiver.connection.callbacks.onRead = true
    · rw [if_pos ⟨set, by rw [online]; decide⟩]
      cases called : onRead (data.map some) receiver.connection with
      | error stop => exact .inl ⟨stop, rfl, none, rfl⟩
      | ok connection => exact .inr ⟨_, _, rfl, rfl, begins.emptied, rfl⟩
    · rw [if_neg fun both => set both.1]
      exact .inr ⟨_, _, rfl, silent (Bool.not_eq_true _ |>.mp set), begins.emptied, rfl⟩

theorem finish_refines (begins : BeginsWith receiver.dataIn []) (last : ReadReply)
    (onDisconnect : Connection → Except Stop Connection) :
    ((receiver.finish last onDisconnect).map fun result => (result.1.1.connection, result.1.2)) =
        (if (last = .bytes [] ∨ last = .failed) ∧ receiver.connection.state ≠ .shutdown then
          (receiver.connection.destroying onDisconnect).map fun connection => (connection, (-1 : Int))
        else .ok (receiver.connection, 0)).mapError .stop ∧
      ∀ result, receiver.finish last onDisconnect = .ok result → result.1.1.dataIn = receiver.dataIn := by
  unfold Receiver.finish
  split
  · cases receiver.connection.destroying onDisconnect with
    | error stop => exact ⟨rfl, fun result ok => by cases ok⟩
    | ok connection => exact ⟨rfl, fun result ok => by cases ok; rfl⟩
  · have used : receiver.dataIn.used.toNat = 0 := begins.used
    refine ⟨?_, fun result ok => by cases ok; rfl⟩
    show Except.ok (receiver.connection, (receiver.dataIn.used.toNat : Int)) = _
    rw [used]
    rfl

theorem connection_reads {connection : Connection} (online : connection.state = .online) :
    connection.apeSocketRead kernel maxChunks fuel event =
      (if (receive event.reads).data ≠ [] then
        (connection.emit ((receive event.reads).replies.map .read)).callback kernel maxChunks fuel
          connection.callbacks.onRead (.onRead (receive event.reads).data) event.onRead
      else .ok (connection.emit ((receive event.reads).replies.map .read))).bind fun connection =>
        if ((receive event.reads).last = .bytes [] ∨ (receive event.reads).last = .failed) ∧ connection.state ≠ .shutdown then
          (connection.apeSocketDestroy kernel maxChunks fuel event.onDisconnect).map fun connection => (connection, -1)
        else .ok (connection, 0) := by
  have still : (connection.emit ((receive event.reads).replies.map .read)).state ≠ .shutdown := by
    intro shut
    cases online.symm.trans shut
  unfold Connection.apeSocketRead
  rw [if_neg (not_not.mpr online)]
  simp only [still, ne_eq, not_false_eq_true, and_true]
  rfl

theorem receiver_reads_plain {ssl : Nat → SslReply} {arriving : ReadEvent} {filling : Filling} {last : ReadReply}
    (online : receiver.connection.state = .online)
    (filled : fillDataIn false receiver.dataIn arriving.arriving = .ok (filling, last)) :
    let read : Receiver :=
      { connection := receiver.connection.emit (filling.reads.map fun call => .read call.2), dataIn := filling.dataIn }
    receiver.apeSocketRead kernel ssl fuel false arriving =
      andThen (.ok (read, filling.reads.map fun call => .read call.1 call.2)) fun receiver =>
        andThen (receiver.passOn arriving.onRead) fun receiver => receiver.finish last arriving.onDisconnect := by
  intro read
  unfold Receiver.apeSocketRead Receiver.writeFirst
  simp only [Bool.false_eq_true, false_and, if_false]
  rw [if_neg (not_not.mpr online), filled]

theorem Brought.settled {waiting : List Byte} {limit : Nat} {total : Received} {filling : Filling} {last : ReadReply}
    (brought : Brought false waiting limit total filling last) : total.last = last := by
  rw [brought.ends]
  cases last with
  | interrupted => cases brought.broken rfl
  | bytes | again | failed => rfl

/-- The bytes that a plain socket got, as its calls got them. -/
theorem answers_received {waiting : List Byte} {limit : Nat} {filling : Filling} {last : ReadReply}
    {arriving : List ReadReply} (filled : fillDataIn false receiver.dataIn arriving = .ok (filling, last))
    (brought : Brought false waiting limit (arrival false arriving) filling last) :
    receive (filling.reads.map Prod.snd) =
      { data := (receive arriving).data, replies := filling.reads.map Prod.snd, last := (receive arriving).last } := by
  obtain ⟨replies, answers, goes, ends⟩ := fill_answers filled
  have got : replies.flatMap replyBytes = (receive arriving).data := by
    have all : gotBytes filling.reads = (receive arriving).data := brought.data
    have split : gotBytes filling.reads = (filling.reads.map Prod.snd).flatMap replyBytes := by
      rw [List.flatMap_map]
      rfl
    rw [← all, split, answers, List.flatMap_append, List.flatMap_singleton, @ending_empty false last (.inl ends),
      List.append_nil]
  rw [answers, receive_answers goes ends, got, show (receive arriving).last = last from brought.settled]

/-- One read, and the same read of a socket without `data_in` that gets what the calls got. -/
theorem readPlain_refines (empty : Empty receiver) (countable : Countable event) :
    ∃ cut, (receive cut).data = (receive event.reads).data ∧ (receive cut).last = (receive event.reads).last ∧
      (receiver.readPlain kernel maxChunks fuel event).map (fun result => (result.1.connection, result.2)) =
        (receiver.connection.apeSocketRead kernel maxChunks fuel { event with reads := cut }).mapError .stop ∧
      ∀ next ret, receiver.readPlain kernel maxChunks fuel event = .ok (next, ret) → Empty next := by
  obtain ⟨begins, most⟩ := empty
  unfold Receiver.readPlain
  by_cases online : receiver.connection.state = .online
  · obtain ⟨filling, last, filled, brought⟩ := @fill_brings false [] (readLimit false) receiver.dataIn event.reads begins most
      countable (le_refl _)
    have cut := answers_received filled brought
    have held : BeginsWith filling.dataIn (receive event.reads).data := brought.begins
    have settled : (receive event.reads).last = last := brought.settled
    refine ⟨filling.reads.map Prod.snd, by rw [cut], by rw [cut], ?_⟩
    rw [connection_reads online, receiver_reads_plain online filled]
    simp only [cut, settled, List.map_map]
    rcases @passOn_refines
      { connection := receiver.connection.emit (filling.reads.map fun call => .read call.2), dataIn := filling.dataIn }
      (receive event.reads).data held online (fun data connection => connection.callback kernel maxChunks fuel
        connection.callbacks.onRead (.onRead (data.map (·.getD 0#8))) event.onRead)
      (fun unset => if_neg (by rw [unset]; decide)) with
      ⟨stop, stopped, some, called⟩ | ⟨next, shown, passed, called, empty, size⟩
    · rw [some_getD] at called
      have told : (receiver.connection.emit (filling.reads.map (ConnectionEvent.read ∘ Prod.snd))).callback kernel maxChunks
        fuel receiver.connection.callbacks.onRead (.onRead (receive event.reads).data) event.onRead = .error stop := called
      rw [if_pos some, told]
      simp only [andThen, stopped]
      exact ⟨rfl, fun next ret ok => by cases ok⟩
    · rw [some_getD] at called
      have told : (if (receive event.reads).data ≠ [] then
          (receiver.connection.emit (filling.reads.map (ConnectionEvent.read ∘ Prod.snd))).callback kernel maxChunks fuel
            receiver.connection.callbacks.onRead (.onRead (receive event.reads).data) event.onRead
        else .ok (receiver.connection.emit (filling.reads.map (ConnectionEvent.read ∘ Prod.snd)))) = .ok next.connection :=
        called
      obtain ⟨equal, kept⟩ := finish_refines empty last fun connection =>
        connection.performAll kernel maxChunks fuel event.onDisconnect
      rw [told]
      simp only [andThen, passed]
      cases done : next.finish last fun connection => connection.performAll kernel maxChunks fuel event.onDisconnect with
      | error failure =>
        rw [done] at equal
        exact ⟨equal, fun next ret ok => by cases ok⟩
      | ok result =>
        have same := kept result done
        rcases result with ⟨⟨reached, ret⟩, rest⟩
        rw [done] at equal
        refine ⟨equal, fun _ _ ok => ?_⟩
        cases ok
        exact ⟨same ▸ empty, by rw [same, size]; exact brought.most⟩
  · unfold Receiver.apeSocketRead Receiver.writeFirst Connection.apeSocketRead
    simp only [Bool.false_eq_true, false_and, if_false]
    simp only [ne_eq, online, not_false_eq_true, if_true]
    exact ⟨event.reads, rfl, rfl, rfl, fun next ret ok => by cases ok; exact ⟨begins, most⟩⟩

theorem beside_connection (receiver : Receiver) (done : Except Stop Connection) :
    (receiver.beside done).map (·.connection) = done.mapError .stop := by
  cases done <;> rfl

theorem beside_empty {done : Except Stop Connection} (empty : Empty receiver) (ran : receiver.beside done = .ok next) :
    Empty next := by
  cases done with
  | error stop => cases ran
  | ok connection =>
    cases ran
    exact ⟨empty.begins, empty.most⟩

/-- What two runs that agree are followed by. -/
theorem bind_refines {buffered : Except ReceiveStop (Receiver × Int)} {plain : Except Stop (Connection × Int)}
    {f : Receiver × Int → Except ReceiveStop Receiver} {g : Connection × Int → Except Stop Connection}
    (agree : buffered.map (fun result => (result.1.connection, result.2)) = plain.mapError .stop)
    (later : ∀ result, (f result).map (·.connection) = (g (result.1.connection, result.2)).mapError .stop) :
    (buffered.bind f).map (·.connection) = (plain.bind g).mapError .stop := by
  cases buffered with
  | error failure =>
    cases plain with
    | error stop =>
      cases agree
      rfl
    | ok result => cases agree
  | ok result =>
    cases plain with
    | error stop => cases agree
    | ok other =>
      cases agree
      exact later result

/-- What `APE_loop_run` does with `EVENT_READ`. -/
def plainReading (kernel : Kernel) (maxChunks fuel : Nat) (event : LoopEvent) (connection : Connection) :
    Except Stop (Connection × Int) :=
  if event.readable then
    match connection.proto with
    | .tcp => connection.apeSocketRead kernel maxChunks fuel event
    | .udp => (connection.apeSocketReadUdp kernel maxChunks fuel event.datagrams).map (·, 0)
  else .ok (connection, 0)

theorem dispatch_reading (connection : Connection) (event : LoopEvent) :
    connection.dispatch kernel maxChunks fuel event =
      (plainReading kernel maxChunks fuel event (if event.writable then connection.unblock else connection)).bind
        fun result => if result.2 ≠ -1 ∧ event.writable then result.1.writable kernel maxChunks fuel event
          else .ok result.1 := rfl

theorem reading_refines (empty : Empty receiver) (countable : Countable event) :
    ∃ cut, (receive cut).data = (receive event.reads).data ∧ (receive cut).last = (receive event.reads).last ∧
      (receiver.reading kernel maxChunks fuel event).map (fun result => (result.1.connection, result.2)) =
        (plainReading kernel maxChunks fuel { event with reads := cut } receiver.connection).mapError .stop ∧
      ∀ next ret, receiver.reading kernel maxChunks fuel event = .ok (next, ret) → Empty next := by
  unfold Receiver.reading plainReading
  cases readable : event.readable with
  | false => exact ⟨event.reads, rfl, rfl, rfl, fun next ret ok => by cases ok; exact empty⟩
  | true =>
    cases proto : receiver.connection.proto with
    | tcp => exact readPlain_refines empty countable
    | udp =>
      refine ⟨event.reads, rfl, rfl, ?_, ?_⟩
      · simp only [if_true]
        cases receiver.connection.apeSocketReadUdp kernel maxChunks fuel event.datagrams <;> rfl
      · intro next ret ok
        obtain ⟨reached, ran, same⟩ := returned_map ok
        cases same
        exact beside_empty empty ran

theorem dispatch_refines (empty : Empty receiver) (countable : Countable event) :
    ∃ cut, (receive cut).data = (receive event.reads).data ∧ (receive cut).last = (receive event.reads).last ∧
      (receiver.dispatch kernel maxChunks fuel event).map (·.connection) =
        (receiver.connection.dispatch kernel maxChunks fuel { event with reads := cut }).mapError .stop ∧
      ∀ next, receiver.dispatch kernel maxChunks fuel event = .ok next → Empty next := by
  let ready : Receiver := if event.writable then { receiver with connection := receiver.connection.unblock } else receiver
  have same : ready.connection =
      if event.writable then receiver.connection.unblock else receiver.connection := by
    dsimp only [ready]
    split <;> rfl
  have still : Empty ready := by
    dsimp only [ready]
    split
    · exact ⟨empty.begins, empty.most⟩
    · exact empty
  obtain ⟨cut, data, last, agree, empties⟩ := @reading_refines kernel maxChunks fuel ready event still countable
  rw [same] at agree
  refine ⟨cut, data, last, ?_, ?_⟩
  · rw [dispatch_reading]
    apply bind_refines agree
    intro result
    show Except.map _ (if result.2 ≠ -1 ∧ event.writable = true then _ else _) =
      Except.mapError _ (if result.2 ≠ -1 ∧ event.writable = true then _ else _)
    split
    · exact beside_connection _ _
    · rfl
  · intro next ok
    obtain ⟨⟨middle, ret⟩, read, rest⟩ := returned_bind ok
    have empty' := empties middle ret read
    dsimp only at rest
    split at rest
    · exact beside_empty empty' rest
    · cases rest
      exact empty'

theorem loopStep_refines {step : ConnectionStep} (empty : Empty receiver)
    (countable : ∀ event, step = .event event → Countable event) :
    ∃ other, Recut step other ∧
      (receiver.loopStep kernel maxChunks fuel step).map (·.connection) =
        (receiver.connection.step kernel maxChunks fuel other).mapError .stop ∧
      ∀ next, receiver.loopStep kernel maxChunks fuel step = .ok next → Empty next := by
  cases step with
  | event event =>
    unfold Receiver.loopStep Connection.step
    dsimp only
    split
    · exact ⟨.event event, .same _, rfl, fun next ok => by cases ok; exact empty⟩
    · obtain ⟨cut, data, last, agree, empties⟩ := @dispatch_refines kernel maxChunks fuel receiver event empty
        (countable event rfl)
      exact ⟨_, .event event cut data last, agree, empties⟩
  | call | resolved | process | timer =>
    exact ⟨_, .same _, beside_connection _ _, fun next ok => beside_empty empty ok⟩

theorem run_refines {steps : List ConnectionStep} (empty : Empty receiver)
    (countable : ∀ event, .event event ∈ steps → Countable event) :
    ∃ others, List.Forall₂ Recut steps others ∧
      (runAll (Receiver.loopStep kernel maxChunks fuel) receiver steps).map (·.connection) =
        (runAll (Connection.step kernel maxChunks fuel) receiver.connection others).mapError .stop := by
  induction steps generalizing receiver with
  | nil => exact ⟨[], .nil, rfl⟩
  | cons step steps ih =>
    obtain ⟨other, recut, agree, empties⟩ := @loopStep_refines kernel maxChunks fuel receiver step empty
      fun event same => countable event (same ▸ List.mem_cons_self)
    cases stepped : receiver.loopStep kernel maxChunks fuel step with
    | error failure =>
      -- what follows is not reached in either machine
      refine ⟨other :: steps, .cons recut (List.forall₂_same.mpr fun later _ => .same later), ?_⟩
      rw [stepped] at agree
      cases other_ : receiver.connection.step kernel maxChunks fuel other with
      | error stop =>
        rw [other_] at agree
        simp only [runAll, stepped, other_]
        exact agree
      | ok connection =>
        rw [other_] at agree
        cases agree
    | ok next =>
      obtain ⟨others, recuts, agrees⟩ := ih (empties next stepped) fun event member =>
        countable event (List.mem_cons_of_mem _ member)
      refine ⟨other :: others, .cons recut recuts, ?_⟩
      rw [stepped] at agree
      cases other_ : receiver.connection.step kernel maxChunks fuel other with
      | error stop =>
        rw [other_] at agree
        cases agree
      | ok connection =>
        rw [other_] at agree
        cases agree
        simp only [runAll, stepped, other_]
        exact agrees

end Refine

section Whole

variable (kernel : Kernel) (maxChunks fuel : Nat) (connection : Connection) (steps : List ConnectionStep)

/-- Between `APE_loop_run` and what is read lies `data_in`, of which the socket shows nothing: the machine that reads into it
    does what the machine without it does whose kernel answers in the parts that there was room for. -/
theorem data_in_refines (countable : ∀ event, .event event ∈ steps → Countable event) :
    ∃ others, List.Forall₂ Recut steps others ∧
      (runAll (Receiver.loopStep kernel maxChunks fuel) { connection } steps).map (·.connection) =
        (runAll (Connection.step kernel maxChunks fuel) connection others).mapError .stop :=
  run_refines ⟨begins_empty, Nat.zero_le _⟩ countable

end Whole

section Greeting

/-- A greeting that comes in two parts while the socket can also be written. -/
def greetingEvent : ConnectionStep :=
  .event { readable := true, writable := true, reads := [.bytes [0x48#8], .interrupted, .bytes [0x69#8]] }

theorem data_in_refines_greeting :
    let start := openedSocket 0#64 0#64 true { onRead := true }
    ∃ others, List.Forall₂ Recut [greetingEvent] others ∧
      (runAll (Receiver.loopStep generous 1 1) { connection := start } [greetingEvent]).map (·.connection) =
        (runAll (Connection.step generous 1 1) start others).mapError .stop := by
  intro start
  apply data_in_refines
  intro event member
  cases List.mem_singleton.mp member
  show 2 + 4096 ≤ readLimit false
  decide

end Greeting

end ZapeProof
