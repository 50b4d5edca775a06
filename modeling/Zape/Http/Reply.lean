import Mathlib.Data.List.DropRight
import Zape.Http.Echo
import Zape.Http.KeepAlive

/-! What an HTTP client reads from a connection on which `response` has answered. -/
namespace ZapeProof

open Machine Zig ZapeModel ZapeModel.HttpServer

section Reader

def crlf : List Byte := [0x0D#8, 0x0A#8]

/-- A line, without the CRLF at its end. -/
def readLine : Reader Byte (List Byte)
  | first :: second :: rest =>
    if first = 0x0D#8 ∧ second = 0x0A#8 then some ([], rest)
    else (readLine (second :: rest)).map fun (line, rest) => (first :: line, rest)
  | _ => none

/-- The lines up to the empty one. -/
def readHead : Reader Byte (List (List Byte)) := fun stream => readUntil readLine (·.isEmpty) stream.length stream

def decimalOf (bytes : List Byte) : Option Nat :=
  if bytes = [] then none
  else bytes.foldlM (fun value byte => (fmt.charToDigit byte).map (value * 10 + ·)) 0

/-- The status code of a status line: three digits behind the version. -/
def statusCode (line : List Byte) : Option Nat :=
  if (text "HTTP/1.1 ").isPrefixOf line then
    match line.drop 9 with
    | first :: second :: third :: space :: _ => if space = 0x20#8 then decimalOf [first, second, third] else none
    | _ => none
  else none

def blank (byte : Byte) : Bool := byte = 0x20#8 || byte = 0x09#8

/-- The value of a header line with this name. -/
def fieldValue (name line : List Byte) : Option (List Byte) :=
  let value := (line.dropWhile (· ≠ 0x3A#8)).drop 1
  if ascii.lowerString (line.takeWhile (· ≠ 0x3A#8)) = ascii.lowerString name then
    some ((value.dropWhile blank).rdropWhile blank)
  else none

def contentLength (fields : List (List Byte)) : Option Nat :=
  (fields.findSome? (fieldValue (text "Content-Length"))).bind decimalOf

/-- An answer with this code has no body, whatever its header lines are. -/
def bodiless (code : Nat) : Bool := code < 200 || code = 204 || code = 304

/-- The status code of an answer with these lines, and how long its body is. -/
def bodyLength : List (List Byte) → Option (Nat × Nat)
  | [] => none
  | status :: fields =>
    (statusCode status).bind fun code =>
      (contentLength fields).map fun length => (code, if bodiless code then 0 else length)

def readBody (lines : List (List Byte)) : Reader Byte (Nat × List Byte) := fun stream =>
  match bodyLength lines with
  | none => none
  | some (code, length) =>
    if length ≤ stream.length then some ((code, stream.take length), stream.drop length) else none

/-- The answer to a request other than `HEAD`: its status code and its body. -/
def readReply : Reader Byte (Nat × List Byte) := fun stream =>
  (readPair readHead readBody stream).map fun ((_, reply), rest) => (reply, rest)

theorem readLine_cons {first : Byte} (plain : first ≠ 0x0D#8) {stream : List Byte} (more : stream ≠ []) :
    readLine (first :: stream) = (readLine stream).map fun (line, rest) => (first :: line, rest) := by
  obtain ⟨second, rest, rfl⟩ := List.exists_cons_of_ne_nil more
  rw [readLine, if_neg fun both => plain both.1]

theorem line_delimits : Delimits readLine (· ++ crlf) (0x0D#8 ∉ ·) where
  whole := by
    intro line rest plain
    induction line with
    | nil => rfl
    | cons byte line ih =>
      rw [List.mem_cons, not_or] at plain
      rw [List.cons_append, List.cons_append, readLine_cons (Ne.symm plain.1) (by simp [crlf]), ih plain.2, Option.map_some]
  part := by
    intro line stream missing plain split more
    induction line generalizing stream with
    | nil =>
      rcases stream with _ | ⟨first, _ | ⟨second, stream⟩⟩
      · rfl
      · rfl
      · have rest : stream ++ missing = [] := (List.cons.inj (List.cons.inj split).2).2
        exact absurd (List.append_eq_nil_iff.mp rest).2 more
    | cons byte line ih =>
      rw [List.mem_cons, not_or] at plain
      cases stream with
      | nil => rfl
      | cons first stream =>
        obtain ⟨rfl, later⟩ := List.cons.inj split
        cases stream with
        | nil => rfl
        | cons second stream => rw [readLine_cons (Ne.symm plain.1) (by simp), ih _ plain.2 later, Option.map_none]
  empty := rfl

theorem head_delimits : Delimits readHead (fun lines => lines.flatMap (· ++ crlf) ++ crlf)
    (fun lines => ∀ line ∈ lines, 0x0D#8 ∉ line ∧ line.isEmpty = false) :=
  @Delimits.until _ _ _ _ _ line_delimits _ [] (by simp) rfl

theorem body_cuts (lines : List (List Byte)) :
    Cuts (readBody lines) Prod.snd fun reply => bodyLength lines = some (reply.1, reply.2.length) where
  whole := by
    rintro ⟨code, body⟩ rest known
    simp only [readBody, known]
    rw [if_pos (by simp), List.take_left, List.drop_left]
  part := by
    rintro ⟨code, body⟩ stream missing known split more
    have positive := List.length_pos_iff.mpr more
    have short : ¬ body.length ≤ stream.length := by
      rw [← show stream ++ missing = body from split, List.length_append]
      omega
    simp only [readBody, known, if_neg short]

end Reader

section Decimals

def isDigit (byte : Byte) : Prop := 0x30 ≤ byte.toNat ∧ byte.toNat ≤ 0x39

theorem digit_value : ∀ digit < 10, fmt.charToDigit (BitVec.ofNat 8 (Nat.digitChar digit).toNat) = some digit := by
  decide

theorem digit_isDigit (digit : Nat) (small : digit < 10) : isDigit (BitVec.ofNat 8 (Nat.digitChar digit).toNat) := by
  have value := digit_value digit small
  unfold fmt.charToDigit at value
  split at value
  · assumption
  · cases value

theorem decimal_step (value : Nat) :
    fmt.decimal value = if value < 10 then [BitVec.ofNat 8 (Nat.digitChar value).toNat]
      else fmt.decimal (value / 10) ++ [BitVec.ofNat 8 (Nat.digitChar (value % 10)).toNat] := by
  rw [fmt.decimal, Nat.toDigits_eq_if (by decide)]
  split
  · rfl
  · rw [List.map_append]
    rfl

theorem decimal_digits (value : Nat) : ∀ byte ∈ fmt.decimal value, isDigit byte := by
  induction value using Nat.strong_induction_on with
  | _ value ih =>
    intro byte member
    rw [decimal_step] at member
    split at member
    · rename_i small
      rw [List.mem_singleton.mp member]
      exact digit_isDigit value small
    · rcases List.mem_append.mp member with front | back
      · exact ih (value / 10) (by omega) byte front
      · rw [List.mem_singleton.mp back]
        exact digit_isDigit (value % 10) (by omega)

theorem decimal_nonempty (value : Nat) : fmt.decimal value ≠ [] := by
  rw [decimal_step]
  split
  · exact List.cons_ne_nil _ _
  · simp

theorem decimal_read (value : Nat) : decimalOf (fmt.decimal value) = some value := by
  have folded : (fmt.decimal value).foldlM (fun value byte => (fmt.charToDigit byte).map (value * 10 + ·)) 0 = some value := by
    induction value using Nat.strong_induction_on with
    | _ value ih =>
      rw [decimal_step]
      split
      · rename_i small
        simp [digit_value value small]
      · rw [List.foldlM_append, ih (value / 10) (by omega)]
        have last := digit_value (value % 10) (by omega)
        simp only [Option.bind_eq_bind, Option.bind_some, List.foldlM_cons, List.foldlM_nil, last, Option.map_some]
        exact congrArg some (by omega)
  rw [decimalOf, if_neg (decimal_nonempty value), folded]

/-- Three digits are those of the numbers from 100 to 999. -/
theorem decimal_three (value : Nat) : (fmt.decimal value).length = 3 ↔ 100 ≤ value ∧ value < 1000 := by
  have below : (fmt.decimal value).length ≤ 3 ↔ value < 1000 := by
    rw [fmt.decimal, List.length_map]
    exact Nat.length_toDigits_le_iff (by decide) (by decide)
  have beyond : (fmt.decimal value).length ≤ 2 ↔ value < 100 := by
    rw [fmt.decimal, List.length_map]
    exact Nat.length_toDigits_le_iff (by decide) (by decide)
  omega

theorem digit_plain {byte : Byte} (digit : isDigit byte) :
    byte ≠ 0x0D#8 ∧ byte ≠ 0x20#8 ∧ blank byte = false := by
  obtain ⟨low, high⟩ := digit
  have other : ∀ mark : Byte, mark.toNat < 0x30 → byte ≠ mark := by
    rintro mark small rfl
    omega
  have space := other 0x20#8 (by decide)
  have tab := other 0x09#8 (by decide)
  exact ⟨other 0x0D#8 (by decide), space, by simp [blank, space, tab]⟩

end Decimals

section Lines

/-- The lines that `response` writes, without the empty one behind them. -/
def headLines (code : BitVec 16) (dataLen : Nat) : List (List Byte) :=
  [text "HTTP/1.1 " ++ (fmt.decimal code.toNat ++ 0x20#8 :: statusText code), text "Content-Length: " ++ fmt.decimal dataLen]

theorem responseHead_lines (code : BitVec 16) (dataLen : Nat) :
    responseHead code dataLen = (headLines code dataLen).flatMap (· ++ crlf) ++ crlf := by
  have ends : text "\r\nContent-Length: " = crlf ++ text "Content-Length: " ∧ text "\r\n\r\n" = crlf ++ crlf ∧
      text " " = [0x20#8] := by
    decide
  simp only [responseHead, headLines, ends, List.flatMap_cons, List.flatMap_nil, List.append_assoc, List.cons_append,
    List.nil_append, List.append_nil]

theorem statusText_plain (code : BitVec 16) : 0x0D#8 ∉ statusText code := by
  unfold statusText
  split <;> decide

theorem headLines_admitted (code : BitVec 16) (dataLen : Nat) :
    ∀ line ∈ headLines code dataLen, 0x0D#8 ∉ line ∧ line.isEmpty = false := by
  have plain : ∀ value, 0x0D#8 ∉ fmt.decimal value :=
    fun value member => (digit_plain (decimal_digits value _ member)).1 rfl
  have fixed : 0x0D#8 ∉ text "HTTP/1.1 " ∧ 0x0D#8 ∉ text "Content-Length: " := by decide
  intro line member
  rcases List.mem_pair.mp member with rfl | rfl
  · refine ⟨?_, rfl⟩
    simp only [List.mem_append, List.mem_cons, fixed, plain, statusText_plain, or_false]
    decide
  · refine ⟨?_, rfl⟩
    simp only [List.mem_append, fixed, plain, or_false, not_false_eq_true]

theorem decimalOf_space (front back : List Byte) : decimalOf (front ++ 0x20#8 :: back) = none := by
  have space : fmt.charToDigit 0x20#8 = none := by decide
  rw [decimalOf, if_neg (by simp), List.foldlM_append]
  cases front.foldlM (fun value byte => (fmt.charToDigit byte).map (value * 10 + ·)) 0 with
  | none => rfl
  | some value => simp [space]

theorem status_read (code : BitVec 16) :
    statusCode (text "HTTP/1.1 " ++ (fmt.decimal code.toNat ++ 0x20#8 :: statusText code)) =
      if 100 ≤ code.toNat ∧ code.toNat < 1000 then some code.toNat else none := by
  have digits := decimal_digits code.toNat
  have read := decimal_read code.toNat
  have three := decimal_three code.toNat
  have version : (text "HTTP/1.1 ").length = 9 := by decide
  rw [statusCode, if_pos (by simp [List.isPrefixOf_iff_prefix]), List.drop_left' version]
  rcases spelled : fmt.decimal code.toNat with _ | ⟨a, _ | ⟨b, _ | ⟨c, _ | ⟨d, more⟩⟩⟩⟩
  · exact absurd spelled (decimal_nonempty _)
  · rw [spelled] at three
    rw [if_neg (by rw [← three]; simp)]
    rcases statusText code with _ | ⟨x, _ | ⟨y, rest⟩⟩
    · rfl
    · rfl
    · show (if y = 0x20#8 then decimalOf ([a] ++ 0x20#8 :: [x]) else none) = none
      rw [decimalOf_space, ite_self]
  · rw [spelled] at three
    rw [if_neg (by rw [← three]; simp)]
    rcases statusText code with _ | ⟨x, rest⟩
    · rfl
    · show (if x = 0x20#8 then decimalOf ([a, b] ++ 0x20#8 :: []) else none) = none
      rw [decimalOf_space, ite_self]
  · rw [spelled] at three read
    rw [if_pos (three.mp rfl), ← read]
    rfl
  · rw [spelled] at three digits
    rw [if_neg (by rw [← three]; simp)]
    have fourth := (digit_plain (digits d (by simp))).2.1
    exact if_neg fourth

theorem length_read (dataLen : Nat) :
    contentLength [text "Content-Length: " ++ fmt.decimal dataLen] = some dataLen := by
  have name : ∀ byte ∈ text "Content-Length", decide (byte ≠ 0x3A#8) = true := by decide
  have split : text "Content-Length: " ++ fmt.decimal dataLen =
      text "Content-Length" ++ 0x3A#8 :: 0x20#8 :: fmt.decimal dataLen := by
    rw [show text "Content-Length: " = text "Content-Length" ++ [0x3A#8, 0x20#8] by decide, List.append_assoc]
    rfl
  have digits : ∀ byte ∈ fmt.decimal dataLen, blank byte = false :=
    fun byte member => (digit_plain (decimal_digits dataLen byte member)).2.2
  have unblank : (0x20#8 :: fmt.decimal dataLen).dropWhile blank = fmt.decimal dataLen := by
    rw [List.dropWhile_cons_of_pos (by decide)]
    cases spelled : fmt.decimal dataLen with
    | nil => rfl
    | cons first more => rw [List.dropWhile_cons_of_neg (by simp [digits first (by rw [spelled]; exact List.mem_cons_self)])]
  have trimmed : (fmt.decimal dataLen).rdropWhile blank = fmt.decimal dataLen := by
    rw [List.rdropWhile_eq_self_iff]
    intro nonempty
    simp [digits _ (List.getLast_mem nonempty)]
  have value : fieldValue (text "Content-Length") (text "Content-Length: " ++ fmt.decimal dataLen) =
      some (fmt.decimal dataLen) := by
    rw [split, fieldValue]
    simp only [List.takeWhile_append_of_pos name, List.dropWhile_append_of_pos name]
    rw [List.takeWhile_cons_of_neg (by decide), List.dropWhile_cons_of_neg (by decide), List.append_nil, if_pos rfl,
      List.drop_one, List.tail_cons, unblank, trimmed]
  rw [contentLength, List.findSome?_cons, value]
  exact decimal_read dataLen

theorem bodyLength_head (code : BitVec 16) (dataLen : Nat) :
    bodyLength (headLines code dataLen) =
      if 100 ≤ code.toNat ∧ code.toNat < 1000 then some (code.toNat, if bodiless code.toNat then 0 else dataLen)
      else none := by
  rw [headLines, bodyLength, status_read, length_read]
  split <;> rfl

/-- A client can read the code, and takes the data for the body of the answer. -/
def Readable (code : BitVec 16) (data : List Byte) : Prop :=
  (100 ≤ code.toNat ∧ code.toNat < 1000) ∧ (data = [] ∨ bodiless code.toNat = false)

theorem readable_length {code : BitVec 16} {data : List Byte} :
    Readable code data ↔ bodyLength (headLines code data.length) = some (code.toNat, data.length) := by
  rw [bodyLength_head]
  constructor
  · rintro ⟨digits, fits⟩
    rw [if_pos digits]
    rcases fits with rfl | body
    · simp
    · rw [body]
      simp
  · intro known
    split at known
    · rename_i digits
      refine ⟨digits, ?_⟩
      cases body : bodiless code.toNat with
      | false => exact .inr rfl
      | true =>
        rw [body] at known
        left
        have none : 0 = data.length := congrArg Prod.snd (Option.some.inj known)
        exact List.eq_nil_of_length_eq_zero none.symm
    · cases known

theorem reply_delimits : Delimits (readPair readHead readBody)
    (fun pair => pair.1.flatMap (· ++ crlf) ++ crlf ++ pair.2.2)
    (fun pair => (∀ line ∈ pair.1, 0x0D#8 ∉ line ∧ line.isEmpty = false) ∧
      bodyLength pair.1 = some (pair.2.1, pair.2.2.length)) :=
  head_delimits.pair fun lines _ => body_cuts lines

/-- The code and the data of an answer are read back just when they are fit for it. -/
theorem reply_read_iff (code : BitVec 16) (data : List Byte) :
    readReply (responseHead code data.length ++ data) = some ((code.toNat, data), []) ↔ Readable code data := by
  have lines := responseHead_lines code data.length
  have admitted := headLines_admitted code data.length
  rw [lines]
  constructor
  · intro read
    obtain ⟨⟨pair, rest⟩, paired, same⟩ := Option.map_eq_some_iff.mp read
    simp only [readPair, head_delimits.whole (headLines code data.length) data admitted] at paired
    obtain ⟨⟨reply, left⟩, body, both⟩ := Option.map_eq_some_iff.mp paired
    cases both
    cases same
    rw [readable_length]
    unfold readBody at body
    split at body
    · cases body
    · rename_i known
      split at body
      · rename_i fits
        obtain ⟨reply, -⟩ := Prod.mk.inj (Option.some.inj body)
        obtain ⟨rfl, taken⟩ := Prod.mk.inj reply
        rw [known]
        have all := congrArg List.length taken
        rw [List.length_take] at all
        exact congrArg (fun length => some (code.toNat, length)) (by omega)
      · cases body
  · intro readable
    have known := readable_length.mp readable
    have whole := reply_delimits.whole (headLines code data.length, code.toNat, data) [] ⟨admitted, known⟩
    rw [List.append_nil] at whole
    rw [readReply, whole, Option.map_some]

theorem reply_part {code : BitVec 16} {data stream missing : List Byte} (readable : Readable code data)
    (split : stream ++ missing = responseHead code data.length ++ data) (more : missing ≠ []) : readReply stream = none := by
  rw [responseHead_lines] at split
  have admitted := headLines_admitted code data.length
  have known := readable_length.mp readable
  have part := reply_delimits.part (headLines code data.length, code.toNat, data) stream missing ⟨admitted, known⟩ split more
  rw [readReply, part, Option.map_none]

end Lines

section Answer

variable {T : Type} [Llhttp]

def isWrite : RequestCall → Bool
  | .write _ _ => true
  | .response _ _ _ | .close _ => false

theorem handed_responded {request : HttpRequestCtx T} (responded : request.responded = true) {calls : List RequestCall}
    (only : ∀ call ∈ calls, isWrite call = false) : handed (request.performAll calls).2 = [] := by
  induction calls with
  | nil => rfl
  | cons call calls ih =>
    have later := ih fun other member => only other (by simp [member])
    have one := only call List.mem_cons_self
    have same : request.perform call = (request, (request.perform call).2) ∧ handed (request.perform call).2 = [] := by
      cases call with
      | response code data close => simp [HttpRequestCtx.perform, HttpRequestCtx.response, responded, handed]
      | write data lifetime => cases one
      | close action => exact ⟨rfl, rfl⟩
    show handed ((request.perform call).2 ++ ((request.perform call).1.performAll calls).2) = []
    rw [handed_append, same.2, congrArg Prod.fst same.1, later]
    rfl

/-- Of all the calls on a request only the first response is written. -/
theorem handed_answer {request : HttpRequestCtx T} (unanswered : request.responded = false) {before after : List RequestCall}
    {code : BitVec 16} {data : List Byte} {close : Bool} (first : ∀ call ∈ before, isResponse call = false)
    (only : ∀ call ∈ before ++ after, isWrite call = false) (usize : data.length < 2 ^ 64) :
    handed (request.performAll (before ++ .response code data close :: after)).2 =
      responseHead code data.length ++ data := by
  induction before with
  | nil =>
    have fits : ¬ 256 < (responseHead code data.length).length := by
      have := responseHead_length code usize
      omega
    have others := @handed_responded T _ { request with responded := true } rfl after only
    have wrote : handed (request.response code data close).2 = responseHead code data.length ++ data := by
      rw [HttpRequestCtx.response, unanswered]
      simp only [Bool.false_eq_true, if_false, if_neg fits]
      rcases data with _ | ⟨byte, data⟩ <;> cases close <;> simp [handed]
    show handed ((request.response code data close).2 ++ ((request.response code data close).1.performAll after).2) = _
    rw [handed_append, wrote]
    simp only [HttpRequestCtx.response, unanswered, Bool.false_eq_true, if_false]
    rw [others, List.append_nil]
  | cons call before ih =>
    have later := ih (fun other member => first other (by simp [member])) fun other member =>
      only other (by rw [List.cons_append]; exact List.mem_cons_of_mem _ member)
    have closes : ∃ action, call = .close action := by
      have unread := first call List.mem_cons_self
      have one := only call (by simp)
      cases call with
      | response code data close => cases unread
      | write data lifetime => cases one
      | close action => exact ⟨action, rfl⟩
    obtain ⟨action, rfl⟩ := closes
    show handed (.close action :: (request.performAll _).2) = _
    exact later

variable [GrowthPolicy] {handler : Handler T} {onRequest : T → RequestView → T × List RequestCall × Bool}
  {request : HttpRequestCtx T} {parser next : Llhttp.Parser} {collected after : Collected} {data : List Byte}
  {calls : List Callback}

/-- The last read of a request: its handler is called, and what it asks for is done. -/
theorem read_answered (listens : handler.onRequest = some onRequest) (receives : Receives request parser collected)
    (ran : Llhttp.run parser data = (next, calls, .ok)) (taken : collected.takeAll calls = some after)
    (complete : after.done = true) {userctx : T} {asked : List RequestCall}
    (answers : onRequest (handler.init after.view) after.view = (userctx, asked, false)) :
    ∃ last, ∃ current : HttpRequestCtx T, current.responded = request.responded ∧ ondata handler request data =
      .ok (last, .onRequest after.view :: (current.performAll asked).2.map .transport) := by
  obtain ⟨parsed, executed, state, holds, http, responded⟩ := execute_some receives ran taken
  have view := holds_view holds
  let current : HttpRequestCtx T := { parsed with userCtx := some userctx }
  rcases performed : current.performAll asked with ⟨answering, written⟩
  have called : onRequest (handler.init parsed.view) parsed.view = (userctx, asked, false) := by
    rw [view]
    exact answers
  have handled := requestDone_eq listens (createHandler_granting holds.allocator) called performed
  have body : ondataBody handler request data = .ok (requestDone handler parsed) := by
    simp [ondata_http receives.websocketState, HttpRequestCtx.clientOnhttpdata, executed, holds.done.trans complete]
  have seen : ({ parsed with userCtx := some (handler.init parsed.view) } : HttpRequestCtx T).view = after.view := view
  refine ⟨answering, current, responded, ?_⟩
  rw [ondata, body, handled, seen]
  simp [performed]

end Answer

end ZapeProof
