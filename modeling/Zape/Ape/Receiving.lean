import Zape.Ape.Reading
import Zape.Ape.Records
import Zape.Buffer.Plain
import Zape.Machine.Transducer

/-! `ape_socket_read` on plain and on secure sockets: what arrives goes through `data_in`. -/
namespace ZapeModel

open Machine

/-- What `data[0]` to `data[used - 1]` hold, as they are passed on. -/
def PlainBuffer.contents (b : PlainBuffer) : List (Option Byte) :=
  match b.data with
  | none => []
  | some memory => readCells memory.cells 0 b.used.toNat

inductive ReceiveStop
  | buffer (failure : AppendFailure)
  | stop (stop : Stop)

/-- `ape_socket` with its `data_in`. -/
structure Receiver where
  connection : Connection
  dataIn : PlainBuffer := {}

/-- An event that says that the socket can be read: what arrives until it would block, and what the callbacks do. -/
structure ReadEvent where
  arriving : List ReadReply
  onRead : List (Option Byte) → Connection → Except Stop Connection
  onDisconnect : Connection → Except Stop Connection

/-- What can be observed: a call of `read` or of `ape_ssl_read` with its room and its answer, what `on_read` is given, what
    there is no `on_read` for, and the end of the stream. -/
inductive ReceiverEvent
  | read (room : SizeT) (reply : ReadReply)
  | onRead (data : List (Option Byte))
  | dropped (data : List (Option Byte))
  | destroy

/-- The loop of `ape_socket_read`; `again` is its label `socket_reread`. -/
structure Filling where
  dataIn : PlainBuffer
  arriving : List ReadReply
  again : Bool := false
  reads : List (SizeT × ReadReply) := []

/-- What a call answers that has so much room, and what arrives behind that. The room of `ape_ssl_read` is an `int`. -/
def readReply (secure : Bool) (room : SizeT) : List ReadReply → ReadReply × List ReadReply
  | [] => (.again, [])
  | .bytes data :: later =>
    let count : Int := if secure then (room.setWidth 32).toInt else room.toNat
    if count < 0 then (.failed, .bytes data :: later)
    else
      let rest := data.drop count.toNat
      (.bytes (data.take count.toNat), if rest = [] then later else .bytes rest :: later)
  | reply :: later => (reply, later)

/-- What the loop does with the answer. -/
def afterRead (secure : Bool) (read : Filling) : ReadReply → Turn Filling (Except AppendFailure (Filling × ReadReply))
  | .bytes [] => .done (.ok (read, .bytes []))
  | .bytes data =>
    match read.dataIn.write read.dataIn.used data with
    | .error failure => .done (.error failure)
    | .ok b => .again { read with dataIn := { b with used := b.used + BitVec.ofNat 64 data.length } }
  | .again => .done (.ok (read, .again))
  | .interrupted => if secure then .done (.ok (read, .interrupted)) else .again { read with again := true }
  | .failed => .done (.ok (read, .failed))

def fillTurn (secure : Bool) (filling : Filling) : Turn Filling (Except AppendFailure (Filling × ReadReply)) :=
  let b := if filling.again then filling.dataIn else filling.dataIn.bufferPrepare 2048#64
  let room := b.size - b.used
  let answered := readReply secure room filling.arriving
  afterRead secure
    { dataIn := b, arriving := answered.2, again := false, reads := filling.reads ++ [(room, answered.1)] } answered.1

/-- One call for each byte and for each answer. -/
def callsFor (arriving : List ReadReply) : Nat :=
  (arriving.map fun
    | .bytes data => data.length + 1
    | _ => 1).sum

/-- A loop that has had a turn for every byte goes on for ever. -/
def fillDataIn (secure : Bool) (dataIn : PlainBuffer) (arriving : List ReadReply) :
    Except AppendFailure (Filling × ReadReply) :=
  (loop (fillTurn secure) (callsFor arriving + 1) { dataIn, arriving }).getD (.error .endless)

namespace Receiver

section Read

variable (kernel : Kernel) (ssl : Nat → SslReply) (fuel : Nat) (secure : Bool)

/-- What a secure socket does first if `SSL_write` waited for it. -/
def writeFirst (connection : Connection) : Except Stop Connection :=
  if secure ∧ connection.world.socket.needWrite then
    let world := { connection.world with socket := { connection.world.socket with needWrite := false } }
    (ApeGlobal.doJobs kernel ssl fuel world).map fun done =>
      connection.follow ((done.out.drop world.out.length).any fun
        | .sslWrite _ .failed => true
        | _ => false) done
  else .ok connection

/-- The contents of `data_in` are passed on, and it is emptied. -/
def passOn (receiver : Receiver) (onRead : List (Option Byte) → Connection → Except Stop Connection) :
    Outcome ReceiveStop Receiver ReceiverEvent :=
  if receiver.dataIn.used = 0#64 then .ok (receiver, [])
  else
    let data := receiver.dataIn.contents
    let emptied := { receiver.dataIn with used := 0#64 }
    if receiver.connection.callbacks.onRead ∧ receiver.connection.state ≠ .shutdown then
      match onRead data receiver.connection with
      | .error stop => .error (.stop stop)
      | .ok connection => .ok ({ connection, dataIn := emptied }, [.onRead data])
    else .ok ({ receiver with dataIn := emptied }, [.dropped data])

/-- The socket is destroyed at the end of the stream, or where `read` failed. -/
def finish (receiver : Receiver) (last : ReadReply) (onDisconnect : Connection → Except Stop Connection) :
    Outcome ReceiveStop (Receiver × Int) ReceiverEvent :=
  if (last = .bytes [] ∨ last = .failed) ∧ receiver.connection.state ≠ .shutdown then
    match receiver.connection.destroying onDisconnect with
    | .error stop => .error (.stop stop)
    | .ok connection => .ok (({ receiver with connection }, -1), [.destroy])
  else .ok ((receiver, receiver.dataIn.used.toNat), [])

/-- `ape_socket_read`. Where `ape_ssl_read` fails, `data_in` is left as it is. -/
def apeSocketRead (receiver : Receiver) (event : ReadEvent) : Outcome ReceiveStop (Receiver × Int) ReceiverEvent :=
  match writeFirst kernel ssl fuel secure receiver.connection with
  | .error stop => .error (.stop stop)
  | .ok connection =>
    if connection.state ≠ .online then .ok (({ receiver with connection }, 0), [])
    else
      match fillDataIn secure receiver.dataIn event.arriving with
      | .error failure => .error (.buffer failure)
      | .ok (filling, last) =>
        let read := connection.emit (filling.reads.map fun call => .read call.2)
        let shown := filling.reads.map fun call => ReceiverEvent.read call.1 call.2
        if secure ∧ (last = .interrupted ∨ last = .failed) then
          .ok (({ connection := (read.emit [.leave]).shut, dataIn := filling.dataIn }, 0), shown)
        else
          andThen (.ok ({ connection := read, dataIn := filling.dataIn }, shown)) fun (receiver : Receiver) =>
            andThen (receiver.passOn event.onRead) fun receiver => receiver.finish last event.onDisconnect

end Read

end Receiver

/-- The socket is read, or something else is done to it. -/
inductive ReceiverStep
  | read (event : ReadEvent)
  | aside (call : Connection → Except Stop Connection)

def Receiver.step (kernel : Kernel) (ssl : Nat → SslReply) (fuel : Nat) (secure : Bool) :
    Transition ReceiveStop Receiver ReceiverStep ReceiverEvent
  | receiver, .read event =>
    andThen (receiver.apeSocketRead kernel ssl fuel secure event) fun result => .ok (result.1, [])
  | receiver, .aside call =>
    match call receiver.connection with
    | .error stop => .error (.stop stop)
    | .ok connection => .ok ({ receiver with connection }, [])

end ZapeModel

namespace ZapeProof

open Machine ZapeModel

/-- A buffer whose first bytes are these; what stands behind them does not matter. -/
structure BeginsWith (b : PlainBuffer) (bytes : List Byte) : Prop where
  used : b.used.toNat = bytes.length
  room : bytes.length ≤ b.size.toNat
  memory : b.size = 0#64 ∨ ∃ memory, b.data = some memory ∧ memory.size = b.size ∧
    ∀ index < bytes.length, memory.cells index = bytes[index]?

/-- A buffer with room for a call of `read`, and with no more than this in all. -/
structure Roomy (b : PlainBuffer) (bytes : List Byte) (limit : Nat) : Prop where
  begins : BeginsWith b bytes
  room : bytes.length + 2048 ≤ b.size.toNat
  most : b.size.toNat ≤ limit

section Buffer

variable {b : PlainBuffer} {bytes : List Byte} {limit : Nat}

theorem begins_empty : BeginsWith {} [] := ⟨rfl, Nat.zero_le _, .inl rfl⟩

theorem BeginsWith.contents (begins : BeginsWith b bytes) : bytes ≠ [] → b.contents = bytes.map some := by
  intro proper
  have positive := List.length_pos_iff.mpr proper
  rcases begins.memory with empty | ⟨memory, data, -, cells⟩
  · have room := begins.room
    rw [empty, BitVec.toNat_zero] at room
    omega
  · unfold PlainBuffer.contents
    simp only [data]
    rw [begins.used]
    apply List.ext_getElem
    · rw [readCells_length, List.length_map]
    · intro index bound inside
      rw [readCells_length] at bound
      have here := cells index bound
      rw [List.getElem?_eq_getElem bound] at here
      simp [readCells, here]

theorem BeginsWith.emptied (begins : BeginsWith b bytes) : BeginsWith { b with used := 0#64 } [] where
  used := rfl
  room := Nat.zero_le _
  memory := begins.memory.imp id fun ⟨memory, data, same, _⟩ =>
    ⟨memory, data, same, fun index inside => absurd inside (Nat.not_lt_zero index)⟩

theorem BeginsWith.prepare (begins : BeginsWith b bytes) (most : b.size.toNat ≤ limit)
    (fits : bytes.length + 4096 ≤ limit) (wide : limit < 2 ^ 64) : Roomy (b.bufferPrepare 2048#64) bytes limit := by
  have used := begins.used
  have room := begins.room
  unfold PlainBuffer.bufferPrepare PlainBuffer.bufferPrepareFor
  by_cases empty : b.size = 0#64
  · rw [empty, BitVec.toNat_zero] at room
    obtain rfl : bytes = [] := List.eq_nil_of_length_eq_zero (Nat.le_zero.mp room)
    rw [if_pos empty]
    refine { begins := ⟨rfl, Nat.zero_le _, .inr ⟨_, rfl, rfl, ?_⟩⟩, room := ?_, most := ?_ }
    · intro index inside
      exact absurd inside (Nat.not_lt_zero index)
    · exact le_refl 2048
    · show 2048 ≤ limit
      omega
  · obtain ⟨memory, data, same, cells⟩ := begins.memory.resolve_left empty
    have sum : (b.used + 2048#64).toNat = bytes.length + 2048 := by
      rw [BitVec.toNat_add, BitVec.toNat_ofNat]
      omega
    have order : b.size.ult (b.used + 2048#64) = true ↔ b.size.toNat < bytes.length + 2048 := by
      rw [BitVec.ult, decide_eq_true_eq, sum]
    rw [if_neg empty]
    by_cases short : b.size.toNat < bytes.length + 2048
    · have grown : (b.size + 2048#64).toNat = b.size.toNat + 2048 := by
        rw [BitVec.toNat_add, BitVec.toNat_ofNat]
        omega
      rw [if_pos (order.mpr short), if_neg (by decide)]
      refine { begins := ⟨used, ?_, .inr ⟨_, rfl, realloc_size _ _, ?_⟩⟩, room := ?_, most := ?_ }
      · show bytes.length ≤ (b.size + 2048#64).toNat
        omega
      · intro index inside
        rw [data]
        show (if index < memory.size.toNat then memory.cells index else none) = _
        rw [if_pos (by rw [same]; omega), cells index inside]
      · show bytes.length + 2048 ≤ (b.size + 2048#64).toNat
        omega
      · show (b.size + 2048#64).toNat ≤ limit
        omega
    · rw [if_neg fun grows => short (order.mp grows)]
      exact { begins := begins, room := by omega, most := most }

/-- The room of a call is behind what is held already. -/
theorem Roomy.offered (roomy : Roomy b bytes limit) : (b.size - b.used).toNat = b.size.toNat - bytes.length := by
  have used := roomy.begins.used
  have room := roomy.room
  have bound := b.size.isLt
  rw [BitVec.toNat_sub, used]
  omega

theorem Roomy.take (roomy : Roomy b bytes limit) {data : List Byte} (inside : bytes.length + data.length ≤ b.size.toNat) :
    ∃ next, b.write b.used data = .ok next ∧ next.size = b.size ∧
      BeginsWith { next with used := next.used + BitVec.ofNat 64 data.length } (bytes ++ data) := by
  obtain ⟨begins, room, most⟩ := roomy
  have used := begins.used
  have bound := b.size.isLt
  have proper : b.size ≠ 0#64 := by
    intro zero
    rw [zero, BitVec.toNat_zero] at room
    omega
  obtain ⟨memory, held, same, cells⟩ := begins.memory.resolve_left proper
  refine ⟨_, write_held held data (by rw [same, used]; exact inside), rfl, ?_⟩
  refine ⟨?_, ?_, .inr ⟨_, rfl, same, ?_⟩⟩
  · show (b.used + BitVec.ofNat 64 data.length).toNat = _
    rw [BitVec.toNat_add, BitVec.toNat_ofNat, used, List.length_append]
    omega
  · rw [List.length_append]
    exact inside
  · intro index below
    show writeCells memory.cells b.used.toNat (data.map some) index = _
    rw [used, writeCells]
    by_cases before : index < bytes.length
    · rw [if_neg (by omega), cells index before, List.getElem?_append_left before]
    · rw [List.length_append] at below
      rw [if_pos (by omega), List.getElem?_append_right (by omega), List.getElem?_map,
        List.getElem?_eq_getElem (by omega)]
      rfl

end Buffer

/-- `SSL_read` that is interrupted has failed. -/
def settledReply : ReadReply → ReadReply
  | .interrupted => .failed
  | reply => reply

/-- What one event brings, as if there were room for all of it. -/
def arrival (secure : Bool) (arriving : List ReadReply) : Received :=
  receive (if secure then arriving.map settledReply else arriving)

/-- The size that a call can be given: a `size_t`, or an `int`. -/
def readLimit (secure : Bool) : Nat := if secure then 2 ^ 31 - 1 else 2 ^ 64 - 1

def replyBytes : ReadReply → List Byte
  | .bytes data => data
  | .again | .interrupted | .failed => []

/-- A call that has room, in memory that is there for it. -/
structure Spacious (secure : Bool) (room : SizeT) (reply : ReadReply) : Prop where
  some : 2048 ≤ room.toNat
  number : room.toNat ≤ readLimit secure
  inside : (replyBytes reply).length ≤ room.toNat

section Answers

variable {secure : Bool} {room : SizeT} {data : List Byte} {arriving later : List ReadReply}

theorem receive_bytes (proper : data ≠ []) (later : List ReadReply) :
    (receive (.bytes data :: later)).data = data ++ (receive later).data ∧
      (receive (.bytes data :: later)).last = (receive later).last := by
  cases data with
  | nil => exact absurd rfl proper
  | cons byte bytes => exact ⟨rfl, rfl⟩

theorem arrival_bytes (proper : data ≠ []) (later : List ReadReply) :
    (arrival secure (.bytes data :: later)).data = data ++ (arrival secure later).data ∧
      (arrival secure (.bytes data :: later)).last = (arrival secure later).last := by
  cases secure with
  | false => exact receive_bytes proper later
  | true => exact receive_bytes proper (later.map settledReply)

/-- What an event brings from an answer on that says that there is nothing more. -/
theorem arrival_exhausted {reply : ReadReply} (last : exhausts reply = true) (later : List ReadReply) :
    (arrival secure (reply :: later)).data = [] ∧ (arrival secure (reply :: later)).last = reply := by
  cases reply with
  | interrupted => cases last
  | again | failed => cases secure <;> exact ⟨rfl, rfl⟩
  | bytes data =>
    cases data with
    | nil => cases secure <;> exact ⟨rfl, rfl⟩
    | cons byte bytes => cases last

/-- The call that comes next: it gets some of what arrives, it is made again, or there is no more. -/
theorem readReply_cases (some : 0 < room.toNat) (number : room.toNat ≤ readLimit secure) (arriving : List ReadReply) :
    (∃ data later, readReply secure room arriving = (.bytes data, later) ∧ data ≠ [] ∧ data.length ≤ room.toNat ∧
      callsFor later < callsFor arriving ∧ (arrival secure arriving).data = data ++ (arrival secure later).data ∧
      (arrival secure arriving).last = (arrival secure later).last) ∨
    (∃ later, readReply secure room arriving = (.interrupted, later) ∧ secure = false ∧
      callsFor later < callsFor arriving ∧ (arrival secure arriving).data = (arrival secure later).data ∧
      (arrival secure arriving).last = (arrival secure later).last) ∨
    ∃ reply later, readReply secure room arriving = (reply, later) ∧
      (exhausts reply = true ∨ reply = .interrupted ∧ secure = true) ∧ (arrival secure arriving).data = [] ∧
      (arrival secure arriving).last = settledReply reply := by
  cases arriving with
  | nil =>
    refine .inr (.inr ⟨.again, [], rfl, .inl rfl, ?_⟩)
    cases secure <;> exact ⟨rfl, rfl⟩
  | cons reply later =>
    cases reply with
    | again =>
      obtain ⟨none, last⟩ := @arrival_exhausted secure .again rfl later
      exact .inr (.inr ⟨_, later, rfl, .inl rfl, none, last⟩)
    | failed =>
      obtain ⟨none, last⟩ := @arrival_exhausted secure .failed rfl later
      exact .inr (.inr ⟨_, later, rfl, .inl rfl, none, last⟩)
    | interrupted =>
      cases secure with
      | false => exact .inr (.inl ⟨later, rfl, rfl, by simp [callsFor], rfl, rfl⟩)
      | true => exact .inr (.inr ⟨_, later, rfl, .inr ⟨rfl, rfl⟩, rfl, rfl⟩)
    | bytes data =>
      have count : (if secure then (room.setWidth 32).toInt else (room.toNat : Int)) = room.toNat := by
        cases secure with
        | false => rfl
        | true =>
          have small : room.toNat ≤ 2 ^ 31 - 1 := number
          rw [if_pos rfl, BitVec.toInt_eq_toNat_of_lt]
          · rw [BitVec.toNat_setWidth, Nat.mod_eq_of_lt (by omega)]
          · rw [BitVec.toNat_setWidth]
            omega
      have answered : readReply secure room (.bytes data :: later) = (.bytes (data.take room.toNat),
          if data.drop room.toNat = [] then later else .bytes (data.drop room.toNat) :: later) := by
        unfold readReply
        simp only [count]
        rw [if_neg (by omega)]
        rfl
      rw [answered]
      by_cases empty : data = []
      · obtain ⟨none, last⟩ := @arrival_exhausted secure (.bytes []) rfl later
        rw [empty]
        exact .inr (.inr ⟨_, _, rfl, .inl (by rw [List.take_nil]; rfl), none, by rw [last, List.take_nil]; rfl⟩)
      · have positive := List.length_pos_iff.mpr empty
        refine .inl ⟨_, _, rfl, ?_, ?_, ?_, ?_⟩
        · intro none
          have length := congrArg List.length none
          rw [List.length_take, List.length_nil] at length
          omega
        · rw [List.length_take]
          omega
        · split
          · simp [callsFor]
          · simp only [callsFor, List.map_cons, List.sum_cons, List.length_drop]
            omega
        · obtain ⟨whole, last⟩ := @arrival_bytes secure data empty later
          by_cases none : data.drop room.toNat = []
          · rw [if_pos none, whole, last]
            have all : data.take room.toNat = data := by
              have cut := List.take_append_drop room.toNat data
              rwa [none, List.append_nil] at cut
            exact ⟨by rw [all], rfl⟩
          · obtain ⟨rest, last'⟩ := @arrival_bytes secure _ none later
            rw [if_neg none, whole, last, rest, last', ← List.append_assoc, List.take_append_drop]
            exact ⟨rfl, rfl⟩

end Answers

/-- What the calls of a loop got. -/
def gotBytes (reads : List (SizeT × ReadReply)) : List Byte := reads.flatMap fun call => replyBytes call.2

/-- Between two turns: what the calls got stands behind what waited, and what is to come is the rest. -/
structure InLoop (secure : Bool) (waiting : List Byte) (limit : Nat) (total : Received) (bound : Nat) (filling : Filling) :
    Prop where
  fewer : callsFor filling.arriving ≤ bound
  begins : BeginsWith filling.dataIn (waiting ++ gotBytes filling.reads)
  most : filling.dataIn.size.toNat ≤ limit
  roomy : filling.again = true → (waiting ++ gotBytes filling.reads).length + 2048 ≤ filling.dataIn.size.toNat
  data : gotBytes filling.reads ++ (arrival secure filling.arriving).data = total.data
  last : (arrival secure filling.arriving).last = total.last
  calls : ∀ call ∈ filling.reads, Spacious secure call.1 call.2

/-- All that the event brought stands behind what waited. -/
structure Brought (secure : Bool) (waiting : List Byte) (limit : Nat) (total : Received) (filling : Filling)
    (last : ReadReply) : Prop where
  begins : BeginsWith filling.dataIn (waiting ++ total.data)
  most : filling.dataIn.size.toNat ≤ limit
  data : gotBytes filling.reads = total.data
  ends : total.last = settledReply last
  broken : last = .interrupted → secure = true
  calls : ∀ call ∈ filling.reads, Spacious secure call.1 call.2

section Filling

variable {secure : Bool} {waiting : List Byte} {limit bound : Nat} {total : Received} {filling : Filling} {b : PlainBuffer}
  {room : SizeT} {reply : ReadReply} {later : List ReadReply}

theorem gotBytes_snoc (reads : List (SizeT × ReadReply)) (call : SizeT × ReadReply) :
    gotBytes (reads ++ [call]) = gotBytes reads ++ replyBytes call.2 := by
  rw [gotBytes, List.flatMap_append, List.flatMap_singleton]
  rfl

theorem fillTurn_eq (prepared : (if filling.again then filling.dataIn else filling.dataIn.bufferPrepare 2048#64) = b)
    (answered : readReply secure (b.size - b.used) filling.arriving = (reply, later)) :
    fillTurn secure filling = afterRead secure
      { dataIn := b, arriving := later, again := false, reads := filling.reads ++ [(b.size - b.used, reply)] } reply := by
  unfold fillTurn
  simp only [prepared, answered]

theorem afterRead_bytes {next : PlainBuffer} {data : List Byte} (proper : data ≠ [])
    (written : filling.dataIn.write filling.dataIn.used data = .ok next) :
    afterRead secure filling (.bytes data) =
      .again { filling with dataIn := { next with used := next.used + BitVec.ofNat 64 data.length } } := by
  cases data with
  | nil => exact absurd rfl proper
  | cons byte bytes => simp only [afterRead, written]

theorem afterRead_ends (ends : exhausts reply = true ∨ reply = .interrupted ∧ secure = true) :
    afterRead secure filling reply = .done (.ok (filling, reply)) := by
  rcases ends with ends | ⟨rfl, rfl⟩
  · cases reply with
    | again | failed => rfl
    | interrupted => cases ends
    | bytes data =>
      cases data with
      | nil => rfl
      | cons byte bytes => cases ends
  · rfl

theorem ending_empty (ends : exhausts reply = true ∨ reply = .interrupted ∧ secure = true) : replyBytes reply = [] := by
  rcases ends with ends | ⟨rfl, -⟩
  · cases reply with
    | again | failed => rfl
    | interrupted => cases ends
    | bytes data =>
      cases data with
      | nil => rfl
      | cons byte bytes => cases ends
  · rfl

/-- There is room before each call, whether the buffer was prepared for it or for the one before. -/
theorem InLoop.prepare (looping : InLoop secure waiting limit total bound filling)
    (fits : (waiting ++ total.data).length + 4096 ≤ limit) (wide : limit < 2 ^ 64) :
    Roomy (if filling.again then filling.dataIn else filling.dataIn.bufferPrepare 2048#64)
      (waiting ++ gotBytes filling.reads) limit := by
  split
  · rename_i again
    exact ⟨looping.begins, looping.roomy again, looping.most⟩
  · have data := congrArg List.length looping.data
    rw [List.length_append] at data fits
    refine looping.begins.prepare looping.most ?_ wide
    rw [List.length_append]
    omega

theorem fill_turn (looping : InLoop secure waiting limit total bound filling)
    (fits : (waiting ++ total.data).length + 4096 ≤ limit) (number : limit ≤ readLimit secure) :
    (∃ next less, fillTurn secure filling = .again next ∧ less < bound ∧ InLoop secure waiting limit total less next) ∨
      ∃ result, fillTurn secure filling = .done result ∧
        ∃ filling last, result = .ok (filling, last) ∧ Brought secure waiting limit total filling last := by
  have wide : limit < 2 ^ 64 := by
    apply Nat.lt_of_le_of_lt number
    cases secure <;> decide
  generalize prepared :
    (if filling.again then filling.dataIn else filling.dataIn.bufferPrepare 2048#64) = b
  have roomy := looping.prepare fits wide
  rw [prepared] at roomy
  obtain ⟨begins, room, most⟩ := roomy
  have offered := Roomy.offered ⟨begins, room, most⟩
  have some : 2048 ≤ (b.size - b.used).toNat := by omega
  have inside_limit : (b.size - b.used).toNat ≤ readLimit secure := by omega
  have spacious : ∀ reply : ReadReply, (replyBytes reply).length ≤ (b.size - b.used).toNat →
      ∀ call ∈ filling.reads ++ [(b.size - b.used, reply)], Spacious secure call.1 call.2 := by
    intro reply inside call member
    rcases List.mem_append.mp member with before | here
    · exact looping.calls call before
    · cases List.mem_singleton.mp here
      exact ⟨some, inside_limit, inside⟩
  have fewer := looping.fewer
  rcases @readReply_cases secure (b.size - b.used) (by omega) inside_limit filling.arriving with
    ⟨data, later, answered, proper, inside, less, whole, last⟩ | ⟨later, answered, plain, less, whole, last⟩ |
    ⟨reply, later, answered, ends, none, last⟩
  · obtain ⟨next, written, size, behind⟩ := @Roomy.take b _ limit ⟨begins, room, most⟩ data (by
      rw [offered] at inside
      omega)
    refine .inl ⟨_, callsFor later, (fillTurn_eq prepared answered).trans (afterRead_bytes proper written), by omega, ?_⟩
    refine { fewer := le_refl _, begins := ?_, most := ?_, roomy := ?_, data := ?_, last := ?_, calls := ?_ }
    · dsimp only
      rw [gotBytes_snoc, ← List.append_assoc]
      exact behind
    · exact (congrArg BitVec.toNat size).trans_le most
    · intro again
      cases again
    · dsimp only
      rw [gotBytes_snoc, List.append_assoc, ← looping.data, whole]
      rfl
    · exact last.symm.trans looping.last
    · exact spacious _ inside
  · have turn := fillTurn_eq prepared answered
    rw [plain] at turn
    refine .inl ⟨_, callsFor later, by rw [plain]; exact turn, by omega, ?_⟩
    have same : gotBytes (filling.reads ++ [(b.size - b.used, .interrupted)]) = gotBytes filling.reads := by
      rw [gotBytes_snoc]
      exact List.append_nil _
    refine { fewer := le_refl _, begins := ?_, most := most, roomy := ?_, data := ?_, last := ?_, calls := ?_ }
    · dsimp only
      rw [same]
      exact begins
    · intro _
      dsimp only
      rw [same]
      exact room
    · dsimp only
      rw [same, ← whole]
      exact looping.data
    · exact last.symm.trans looping.last
    · exact spacious _ (Nat.zero_le _)
  · have got : gotBytes (filling.reads ++ [(b.size - b.used, reply)]) = total.data := by
      rw [gotBytes_snoc, ending_empty ends, List.append_nil, ← looping.data, none, List.append_nil]
    have before : gotBytes filling.reads = total.data := by
      rw [← looping.data, none, List.append_nil]
    refine .inr ⟨_, (fillTurn_eq prepared answered).trans (afterRead_ends ends), _, _, rfl, ?_⟩
    refine { begins := ?_, most := most, data := got, ends := looping.last.symm.trans last, broken := ?_, calls := ?_ }
    · rw [← before]
      exact begins
    · intro interrupted
      rcases ends with ends | ⟨-, true⟩
      · rw [interrupted] at ends
        cases ends
      · exact true
    · exact spacious _ (by rw [ending_empty ends]; exact Nat.zero_le _)

/-- The loop ends, and every byte of the event is in the buffer. -/
theorem fill_brings {dataIn : PlainBuffer} {arriving : List ReadReply} (begins : BeginsWith dataIn waiting)
    (most : dataIn.size.toNat ≤ limit) (fits : (waiting ++ (arrival secure arriving).data).length + 4096 ≤ limit)
    (number : limit ≤ readLimit secure) :
    ∃ filling last, fillDataIn secure dataIn arriving = .ok (filling, last) ∧
      Brought secure waiting limit (arrival secure arriving) filling last := by
  have start : InLoop secure waiting limit (arrival secure arriving) (callsFor arriving) { dataIn, arriving } := {
    fewer := le_refl _
    begins := by
      rw [show gotBytes [] = [] from rfl, List.append_nil]
      exact begins
    most := most
    roomy := fun again => by cases again
    data := rfl
    last := rfl
    calls := fun call member => by cases member }
  obtain ⟨result, returned, filling, last, rfl, brought⟩ := loop_within _ _
    (fun bound filling looping => fill_turn looping fits number) start (Nat.lt_succ_self _)
  refine ⟨filling, last, ?_, brought⟩
  unfold fillDataIn
  rw [returned]
  rfl

end Filling

/-- What `on_read` was given. -/
def passedOn (out : List ReceiverEvent) : List (List (Option Byte)) :=
  out.filterMap fun
    | .onRead data => some data
    | _ => none

def receivedBytes (out : List ReceiverEvent) : List Byte :=
  out.flatMap fun
    | .read _ reply => replyBytes reply
    | _ => []

/-- The application is called, or the socket goes away: what was received is not held back any longer. -/
def settles : ReceiverEvent → Bool
  | .onRead _ | .dropped _ | .destroy => true
  | .read _ _ => false

/-- Whenever the application is called, and when the socket goes away, all that was received by then has been passed on. -/
def Prompt (out : List ReceiverEvent) : Prop :=
  ∀ early event late, out = early ++ event :: late → settles event = true →
    (passedOn (early ++ [event])).flatten = (receivedBytes early).map some

/-- A run of a receiver up to here: each call had room, and the bytes received were passed on in order, but for those that
    wait in `data_in`. -/
structure Relaying (secure : Bool) (receiver : Receiver) (out : List ReceiverEvent) (waiting : List Byte) : Prop where
  held : BeginsWith receiver.dataIn waiting
  most : receiver.dataIn.size.toNat ≤ readLimit secure
  waits : waiting ≠ [] → secure = true
  calls : ∀ room reply, .read room reply ∈ out → Spacious secure room reply
  pieces : ∃ pieces : List (List Byte), passedOn out = pieces.map (List.map some) ∧ [] ∉ pieces ∧
    pieces.flatten ++ waiting = receivedBytes out
  prompt : Prompt out

/-- The application has an `on_read` when the socket is read, and there are not as many bytes at once as a number can
    count. -/
def Listens (secure : Bool) (receiver : Receiver) : ReceiverStep → Prop
  | .read event => receiver.connection.callbacks.onRead = true ∧
    receiver.dataIn.used.toNat + (arrival secure event.arriving).data.length + 4096 ≤ readLimit secure
  | .aside _ => True

section Reads

variable {kernel : Kernel} {ssl : Nat → SslReply} {fuel : Nat} {secure : Bool} {receiver next : Receiver}
  {waiting : List Byte} {event : ReadEvent}

theorem follow_callbacks (connection : Connection) (now : Bool) (world : World) :
    (connection.follow now world).callbacks = connection.callbacks := by
  unfold Connection.follow Connection.destroyAsync
  cases now <;> (dsimp only; repeat' split) <;> rfl

theorem writeFirst_callbacks {connection written : Connection}
    (wrote : Receiver.writeFirst kernel ssl fuel secure connection = .ok written) :
    written.callbacks = connection.callbacks := by
  unfold Receiver.writeFirst at wrote
  split at wrote
  · obtain ⟨done, -, rfl⟩ := returned_map wrote
    exact follow_callbacks connection _ _
  · cases wrote
    rfl

theorem begins_used (begins : BeginsWith receiver.dataIn waiting) : receiver.dataIn.used = 0#64 ↔ waiting = [] := by
  rw [← BitVec.toNat_inj, begins.used]
  exact List.length_eq_zero_iff

/-- `on_read` is given all that is held, and then nothing is held any more. -/
theorem passOn_cases (begins : BeginsWith receiver.dataIn waiting) (set : receiver.connection.callbacks.onRead = true)
    (online : receiver.connection.state = .online)
    (onRead : List (Option Byte) → Connection → Except Stop Connection) :
    (∃ stop, receiver.passOn onRead = .error (.stop stop)) ∨
      ∃ next : Receiver, receiver.passOn onRead =
          .ok (next, if waiting = [] then [] else [.onRead (waiting.map some)]) ∧
        BeginsWith next.dataIn [] ∧ next.dataIn.size = receiver.dataIn.size := by
  unfold Receiver.passOn
  by_cases none : waiting = []
  · subst none
    rw [if_pos ((begins_used begins).mpr rfl), if_pos rfl]
    exact .inr ⟨receiver, rfl, begins, rfl⟩
  · rw [if_neg fun zero => none ((begins_used begins).mp zero), if_neg none,
      if_pos ⟨set, by rw [online]; decide⟩, begins.contents none]
    cases onRead (waiting.map some) receiver.connection with
    | error stop => exact .inl ⟨stop, rfl⟩
    | ok connection => exact .inr ⟨_, rfl, begins.emptied, rfl⟩

theorem finish_cases (receiver : Receiver) (last : ReadReply) (onDisconnect : Connection → Except Stop Connection) :
    (∃ stop, receiver.finish last onDisconnect = .error (.stop stop)) ∨
      ∃ (next : Receiver) (ret : Int) (ended : List ReceiverEvent),
        receiver.finish last onDisconnect = .ok ((next, ret), ended) ∧ next.dataIn = receiver.dataIn ∧
        (ended = [] ∨ ended = [.destroy]) := by
  unfold Receiver.finish
  split
  · cases receiver.connection.destroying onDisconnect with
    | error stop => exact .inl ⟨stop, rfl⟩
    | ok connection => exact .inr ⟨_, -1, _, rfl, rfl, .inr rfl⟩
  · exact .inr ⟨receiver, _, [], rfl, rfl, .inl rfl⟩

/-- The calls of one event, as they are shown. -/
def shownCalls (reads : List (SizeT × ReadReply)) : List ReceiverEvent := reads.map fun call => .read call.1 call.2

/-- What one event shows, and what `data_in` holds behind it. -/
inductive ReadShows (secure : Bool) (waiting : List Byte) : List ReceiverEvent → List Byte → Prop
  | nothing : ReadShows secure waiting [] waiting
  | broken (reads : List (SizeT × ReadReply)) (calls : ∀ call ∈ reads, Spacious secure call.1 call.2)
      (true : secure = true) : ReadShows secure waiting (shownCalls reads) (waiting ++ gotBytes reads)
  | whole (reads : List (SizeT × ReadReply)) (calls : ∀ call ∈ reads, Spacious secure call.1 call.2)
      {ended : List ReceiverEvent} (ends : ended = [] ∨ ended = [.destroy]) :
      ReadShows secure waiting (shownCalls reads ++
        ((if waiting ++ gotBytes reads = [] then [] else [.onRead ((waiting ++ gotBytes reads).map some)]) ++ ended)) []

/-- Only a callback or a job can stop the socket from being read. -/
theorem apeSocketRead_cases (begins : BeginsWith receiver.dataIn waiting)
    (most : receiver.dataIn.size.toNat ≤ readLimit secure) (listens : Listens secure receiver (.read event)) :
    (∃ stop, receiver.apeSocketRead kernel ssl fuel secure event = .error (.stop stop)) ∨
      ∃ (next : Receiver) (ret : Int) (shown : List ReceiverEvent) (held : List Byte),
        receiver.apeSocketRead kernel ssl fuel secure event = .ok ((next, ret), shown) ∧
        ReadShows secure waiting shown held ∧ BeginsWith next.dataIn held ∧
        next.dataIn.size.toNat ≤ readLimit secure := by
  obtain ⟨set, fits⟩ := listens
  unfold Receiver.apeSocketRead
  cases wrote : Receiver.writeFirst kernel ssl fuel secure receiver.connection with
  | error stop => exact .inl ⟨stop, rfl⟩
  | ok connection =>
    dsimp only
    by_cases online : connection.state = .online
    · obtain ⟨filling, last, filled, brought⟩ := @fill_brings secure waiting (readLimit secure) receiver.dataIn
        event.arriving begins most (by
          rw [List.length_append, ← begins.used]
          exact fits) (le_refl _)
      have held := brought.begins
      rw [← brought.data] at held
      rw [if_neg (not_not.mpr online), filled]
      dsimp only
      split
      · rename_i broken
        exact .inr ⟨_, 0, _, _, rfl, .broken filling.reads brought.calls broken.1, held, brought.most⟩
      · rw [andThen]
        rcases @passOn_cases
          { connection := connection.emit (filling.reads.map fun call => .read call.2), dataIn := filling.dataIn }
          _ held ((congrArg SocketCallbacks.onRead (writeFirst_callbacks wrote)).trans set) online event.onRead with ⟨stop, stopped⟩ | ⟨passed, told, empty, size⟩
        · rw [stopped]
          exact .inl ⟨stop, rfl⟩
        · rw [told]
          rcases finish_cases passed last event.onDisconnect with ⟨stop, stopped⟩ | ⟨next, ret, ended, done, same, ends⟩
          · simp only [andThen, stopped]
            exact .inl ⟨stop, rfl⟩
          · simp only [andThen, done]
            refine .inr ⟨next, ret, _, [], rfl, .whole filling.reads brought.calls ends, same ▸ empty, ?_⟩
            rw [same, size]
            exact brought.most
    · rw [if_pos online]
      exact .inr ⟨_, 0, [], waiting, rfl, .nothing, begins, most⟩

end Reads

section Runs

variable {secure : Bool} {receiver next : Receiver} {out shown : List ReceiverEvent} {waiting held : List Byte}

theorem passedOn_append (left right : List ReceiverEvent) : passedOn (left ++ right) = passedOn left ++ passedOn right :=
  List.filterMap_append

theorem receivedBytes_append (left right : List ReceiverEvent) :
    receivedBytes (left ++ right) = receivedBytes left ++ receivedBytes right := List.flatMap_append

theorem passedOn_calls (reads : List (SizeT × ReadReply)) : passedOn (shownCalls reads) = [] := by
  rw [passedOn, List.filterMap_eq_nil_iff]
  intro event member
  obtain ⟨call, -, rfl⟩ := List.mem_map.mp member
  rfl

theorem receivedBytes_calls (reads : List (SizeT × ReadReply)) : receivedBytes (shownCalls reads) = gotBytes reads := by
  rw [receivedBytes, shownCalls, List.flatMap_map]
  rfl

theorem prompt_snoc {event : ReceiverEvent} (prompt : Prompt out)
    (settled : settles event = true → (passedOn (out ++ [event])).flatten = (receivedBytes out).map some) :
    Prompt (out ++ [event]) := by
  intro early other late split settles_
  rcases List.eq_nil_or_concat late with rfl | ⟨later, last, rfl⟩
  · obtain ⟨rfl, same⟩ := List.append_inj' split rfl
    cases same
    exact settled settles_
  · have cut : out ++ [event] = (early ++ other :: later) ++ [last] := by
      rw [split, List.concat_eq_append, List.append_assoc, List.cons_append]
    exact prompt early other later (List.append_inj' cut rfl).1 settles_

theorem prompt_calls (prompt : Prompt out) (reads : List (SizeT × ReadReply)) : Prompt (out ++ shownCalls reads) := by
  induction reads using List.reverseRecOn with
  | nil =>
    rw [show shownCalls [] = [] from rfl, List.append_nil]
    exact prompt
  | append_singleton reads call ih =>
    rw [show shownCalls (reads ++ [call]) = shownCalls reads ++ [.read call.1 call.2] from List.map_append,
      ← List.append_assoc]
    exact prompt_snoc ih fun settles_ => by cases settles_

theorem calls_spacious {room : SizeT} {reply : ReadReply} {reads : List (SizeT × ReadReply)}
    (calls : ∀ call ∈ reads, Spacious secure call.1 call.2) (member : .read room reply ∈ shownCalls reads) :
    Spacious secure room reply := by
  obtain ⟨call, inside, same⟩ := List.mem_map.mp member
  cases same
  exact calls call inside

/-- `on_read` is told what waits. -/
theorem tell_pieces {pieces : List (List Byte)} (passed : passedOn out = pieces.map (List.map some))
    (proper : [] ∉ pieces) (cut : pieces.flatten ++ waiting = receivedBytes out) (prompt : Prompt out) :
    let told : List ReceiverEvent := if waiting = [] then [] else [.onRead (waiting.map some)]
    ∃ pieces' : List (List Byte), passedOn (out ++ told) = pieces'.map (List.map some) ∧ [] ∉ pieces' ∧
      pieces'.flatten = receivedBytes (out ++ told) ∧ Prompt (out ++ told) := by
  intro told
  by_cases none : waiting = []
  · have nothing : told = [] := if_pos none
    rw [nothing, List.append_nil]
    rw [none, List.append_nil] at cut
    exact ⟨pieces, passed, proper, cut, prompt⟩
  · have something : told = [.onRead (waiting.map some)] := if_neg none
    have passed' : passedOn (out ++ told) = (pieces ++ [waiting]).map (List.map some) := by
      rw [passedOn_append, passed, something, List.map_append]
      rfl
    have cut' : (pieces ++ [waiting]).flatten = receivedBytes out := by
      rw [List.flatten_append, List.flatten_singleton, cut]
    refine ⟨pieces ++ [waiting], passed', ?_, ?_, ?_⟩
    · intro member
      rcases List.mem_append.mp member with before | here
      · exact proper before
      · exact none (List.mem_singleton.mp here).symm
    · rw [cut', receivedBytes_append, something]
      exact (List.append_nil _).symm
    · rw [something] at passed' ⊢
      refine prompt_snoc prompt fun _ => ?_
      rw [passed', ← List.map_flatten, cut']

/-- One more event of the loop. -/
theorem Relaying.shows (relaying : Relaying secure receiver out waiting) (shows_ : ReadShows secure waiting shown held)
    (begins : BeginsWith next.dataIn held) (most : next.dataIn.size.toNat ≤ readLimit secure) :
    Relaying secure next (out ++ shown) held := by
  obtain ⟨-, -, waits, calls, ⟨pieces, passed, proper, cut⟩, prompt⟩ := relaying
  cases shows_ with
  | nothing =>
    rw [List.append_nil]
    exact ⟨begins, most, waits, calls, ⟨pieces, passed, proper, cut⟩, prompt⟩
  | broken reads spacious true =>
    refine ⟨begins, most, fun _ => true, ?_, ⟨pieces, ?_, proper, ?_⟩, prompt_calls prompt reads⟩
    · intro room reply member
      rcases List.mem_append.mp member with before | here
      · exact calls room reply before
      · exact calls_spacious spacious here
    · rw [passedOn_append, passedOn_calls, List.append_nil, passed]
    · rw [receivedBytes_append, receivedBytes_calls, ← cut, List.append_assoc]
  | @whole reads spacious ended ends =>
    have received : pieces.flatten ++ (waiting ++ gotBytes reads) = receivedBytes (out ++ shownCalls reads) := by
      rw [receivedBytes_append, receivedBytes_calls, ← cut, List.append_assoc]
    have still : passedOn (out ++ shownCalls reads) = pieces.map (List.map some) := by
      rw [passedOn_append, passedOn_calls, List.append_nil, passed]
    obtain ⟨pieces', passed', proper', cut', prompt'⟩ := tell_pieces still proper received (prompt_calls prompt reads)
    rw [← List.append_assoc, ← List.append_assoc]
    refine ⟨begins, most, fun some => absurd rfl some, ?_, ⟨pieces', ?_, proper', ?_⟩, ?_⟩
    · intro room reply member
      rcases List.mem_append.mp member with member | member
      · rcases List.mem_append.mp member with member | member
        · rcases List.mem_append.mp member with before | here
          · exact calls room reply before
          · exact calls_spacious spacious here
        · split at member
          · cases member
          · cases List.mem_singleton.mp member
      · rcases ends with rfl | rfl
        · cases member
        · cases List.mem_singleton.mp member
    · rw [passedOn_append, passed']
      rcases ends with rfl | rfl <;> exact List.append_nil _
    · rw [receivedBytes_append, cut', List.append_nil]
      rcases ends with rfl | rfl <;> exact (List.append_nil _).symm
    · rcases ends with rfl | rfl
      · rw [List.append_nil]
        exact prompt'
      · refine prompt_snoc prompt' fun _ => ?_
        rw [passedOn_append, passed', ← cut', List.map_flatten]
        exact congrArg List.flatten (List.append_nil _)

end Runs

section Steps

variable {kernel : Kernel} {ssl : Nat → SslReply} {fuel : Nat} {secure : Bool} {receiver next : Receiver}
  {out more : List ReceiverEvent} {waiting : List Byte} {step : ReceiverStep}

theorem receiver_reads (event : ReadEvent) :
    receiver.step kernel ssl fuel secure (.read event) =
      andThen (receiver.apeSocketRead kernel ssl fuel secure event) fun result => .ok (result.1, []) := rfl

theorem receiver_aside (call : Connection → Except Stop Connection) :
    (∃ stop, receiver.step kernel ssl fuel secure (.aside call) = .error (.stop stop)) ∨
      ∃ connection, receiver.step kernel ssl fuel secure (.aside call) = .ok ({ receiver with connection }, []) := by
  cases called : call receiver.connection with
  | error stop => exact .inl ⟨stop, by simp only [Receiver.step, called]⟩
  | ok connection => exact .inr ⟨connection, by simp only [Receiver.step, called]⟩

theorem relaying_step (relaying : Relaying secure receiver out waiting) (listens : Listens secure receiver step)
    (stepped : receiver.step kernel ssl fuel secure step = .ok (next, more)) :
    ∃ held, Relaying secure next (out ++ more) held := by
  cases step with
  | read event =>
    rw [receiver_reads] at stepped
    obtain ⟨⟨reached, ret⟩, shown, rest, read, last, rfl⟩ := andThen_cases stepped
    cases last
    rcases @apeSocketRead_cases kernel ssl fuel secure receiver waiting event relaying.held relaying.most listens with
      ⟨stop, stopped⟩ | ⟨next', ret', shown', held, returned, shows_, begins, most⟩
    · cases read.symm.trans stopped
    · cases read.symm.trans returned
      rw [List.append_nil]
      exact ⟨held, relaying.shows shows_ begins most⟩
  | aside call =>
    rcases @receiver_aside kernel ssl fuel secure receiver call with ⟨stop, stopped⟩ | ⟨connection, called⟩
    · cases stepped.symm.trans stopped
    · cases stepped.symm.trans called
      rw [List.append_nil]
      exact ⟨waiting, relaying.held, relaying.most, relaying.waits, relaying.calls, relaying.pieces, relaying.prompt⟩

theorem relaying_stops {failure : ReceiveStop} (relaying : Relaying secure receiver out waiting)
    (listens : Listens secure receiver step) (stopped : receiver.step kernel ssl fuel secure step = .error failure) :
    ∃ stop, failure = .stop stop := by
  cases step with
  | read event =>
    rw [receiver_reads] at stopped
    rcases @apeSocketRead_cases kernel ssl fuel secure receiver waiting event relaying.held relaying.most listens with
      ⟨stop, early⟩ | ⟨next, ret, shown, held, returned, -⟩
    · rw [early] at stopped
      cases stopped
      exact ⟨stop, rfl⟩
    · rw [returned] at stopped
      cases stopped
  | aside call =>
    rcases @receiver_aside kernel ssl fuel secure receiver call with ⟨stop, early⟩ | ⟨connection, called⟩
    · cases stopped.symm.trans early
      exact ⟨stop, rfl⟩
    · cases stopped.symm.trans called

theorem relaying_fresh (secure : Bool) (connection : Connection) : Relaying secure { connection } [] [] where
  held := begins_empty
  most := Nat.zero_le _
  waits := fun some => absurd rfl some
  calls := fun room reply member => by cases member
  pieces := ⟨[], rfl, List.not_mem_nil, rfl⟩
  prompt := fun early event late split => by
    have length := congrArg List.length split
    simp at length

theorem relaying_run {connection : Connection} {steps : List ReceiverStep} {last : Receiver}
    (listens : Always (Receiver.step kernel ssl fuel secure) (Listens secure) { connection } steps)
    (reached : run (Receiver.step kernel ssl fuel secure) { connection } steps = .ok (last, out)) :
    ∃ waiting, Relaying secure last out waiting :=
  run_collects (fun receiver out => ∃ waiting, Relaying secure receiver out waiting)
    (fun _ _ _ _ _ ⟨_, relaying⟩ met stepped => relaying_step relaying met stepped)
    listens ⟨[], relaying_fresh secure connection⟩ reached

end Steps

section Whole

variable (kernel : Kernel) (ssl : Nat → SslReply) (fuel : Nat) (secure : Bool) (connection : Connection)
  (steps : List ReceiverStep)

end Whole

section Greeting

/-- A greeting in two parts, the end of the stream behind it. -/
def greetingArrives : ReadEvent where
  arriving := [.bytes [0x48#8], .interrupted, .bytes [0x69#8], .bytes []]
  onRead := fun _ connection => .ok connection
  onDisconnect := fun connection => .ok connection

end Greeting

end ZapeProof
