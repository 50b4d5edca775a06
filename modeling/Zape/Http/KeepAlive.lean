import Zape.Http.Serving
import Zape.Http.Script

/-! Several requests on one connection. -/
namespace ZapeProof

open Machine Zig ZapeModel ZapeModel.HttpServer

section Response

theorem decimal_length {value count : Nat} (positive : 0 < count) (below : value < 10 ^ count) :
    (fmt.decimal value).length ≤ count := by
  rw [fmt.decimal, List.length_map]
  exact (Nat.length_toDigits_le_iff (by decide) positive).mpr below

theorem statusText_length (code : BitVec 16) : (statusText code).length ≤ 21 := by
  unfold statusText
  split <;> decide

/-- The head of a response always fits its buffer. -/
theorem responseHead_length (code : BitVec 16) {dataLen : Nat} (usize : dataLen < 2 ^ 64) :
    (responseHead code dataLen).length ≤ 256 := by
  have status := statusText_length code
  have number := @decimal_length code.toNat 5 (by decide) (by have := code.isLt; omega)
  have length := @decimal_length dataLen 20 (by decide) (by omega)
  have fixed : (text "HTTP/1.1 ").length = 9 ∧ (text " ").length = 1 ∧
      (text "\r\nContent-Length: ").length = 18 ∧ (text "\r\n\r\n").length = 4 := by decide
  simp only [responseHead, List.length_append, fixed]
  omega

variable {T : Type} [Llhttp]

def isResponse : RequestCall → Bool
  | .response _ _ _ => true
  | .write _ _ | .close _ => false

theorem response_written {request : HttpRequestCtx T} (unanswered : request.responded = false)
    {before after : List RequestCall} (code : BitVec 16) {data : List Byte} (close : Bool)
    (first : ∀ call ∈ before, isResponse call = false) (usize : data.length < 2 ^ 64) :
    .write (responseHead code data.length) .copy ∈
      (request.performAll (before ++ .response code data close :: after)).2 := by
  induction before with
  | nil =>
    have fits : ¬ 256 < (responseHead code data.length).length := by
      have := responseHead_length code usize
      omega
    simp [HttpRequestCtx.performAll, HttpRequestCtx.perform, HttpRequestCtx.response, unanswered, fits]
  | cons call before ih =>
    have others := ih fun other member => first other (by simp [member])
    have kept : (request.perform call).1 = request := by
      cases call with
      | response => cases first _ List.mem_cons_self
      | write | close => rfl
    show _ ∈ (request.perform call).2 ++ ((request.perform call).1.performAll _).2
    rw [kept]
    exact List.mem_append_right _ others

end Response

structure Exchange where
  content : RequestContent
  reads : List (List Byte)
  final : List Byte

section Conversation

variable {T : Type} [Llhttp]

/-- The parser reports each request in its own reads, and its end in the last of them. -/
inductive Conversation : Llhttp.Parser → List Exchange → Prop
  | nil (parser : Llhttp.Parser) : Conversation parser []
  | cons {parser middle next : Llhttp.Parser} {exchange : Exchange} {exchanges : List Exchange}
      {early late : List Callback} {reported : ReportedRequest}
      (reads : Llhttp.Continues parser exchange.reads early middle)
      (final : Llhttp.run middle exchange.final = (next, late, .ok))
      (calls : early ++ late = reported.calls) (meaning : reported.meaning = exchange.content)
      (incomplete : .messageComplete ∉ early) (target : exchange.content.url ≠ [])
      (others : Conversation next exchanges) : Conversation parser (exchange :: exchanges)

variable [GrowthPolicy]

/-- Every request is handed over once, when its last read has come and with nothing but its own content, and
    the first response of its handler is written. -/
def Served (handler : Handler T) (onRequest : T → RequestView → T × List RequestCall × Bool) :
    HttpRequestCtx T → List Exchange → Prop
  | _, [] => True
  | request, exchange :: exchanges =>
    ∃ middle early next late,
      run (ondata handler) request exchange.reads = .ok (middle, early) ∧
      ondata handler middle exchange.final = .ok (next, late) ∧
      requestsSeen early = [] ∧
      requestsSeen late = [RequestContent.view exchange.content] ∧
      (∀ before code data close after,
        (onRequest (handler.init (RequestContent.view exchange.content)) (RequestContent.view exchange.content)).2.1 =
            before ++ .response code data close :: after →
          (∀ call ∈ before, isResponse call = false) → data.length < 2 ^ 64 →
          HttpEvent.transport (.write (responseHead code data.length) .copy) ∈ late) ∧
      Served handler onRequest next exchanges

variable {handler : Handler T} {onRequest : T → RequestView → T × List RequestCall × Bool}
  {request : HttpRequestCtx T} {parser next : Llhttp.Parser} {collected after : Collected} {data : List Byte}
  {calls : List Callback}

omit [GrowthPolicy] in
theorem requestDone_eq (listens : handler.onRequest = some onRequest) {created : HttpRequestCtx T} {userctx : T}
    (create : createHandler handler request = (created, some userctx)) {answered : T} {asked : List RequestCall}
    {failed : Bool} (called : onRequest userctx created.view = (answered, asked, failed))
    {answering : HttpRequestCtx T} {written : List TransportCall}
    (performed : { created with userCtx := some answered }.performAll asked = (answering, written)) :
    requestDone handler request =
      ((answering, if failed then some .handler else none), .onRequest created.view :: written.map .transport) := by
  rw [requestDone, create]
  simp only [listens, called, performed]

theorem read_done (listens : handler.onRequest = some onRequest) (receives : Receives request parser collected)
    (ran : Llhttp.run parser data = (next, calls, .ok)) (taken : collected.takeAll calls = some after)
    (complete : after.done = true) :
    ∃ last, ∃ asked : HttpRequestCtx T, ∃ rest, ondata handler request data =
        .ok (last, .onRequest after.view ::
          (asked.performAll (onRequest (handler.init after.view) after.view).2.1).2.map .transport ++ rest) ∧
      requestsSeen rest = [] ∧ asked.responded = request.responded ∧ Receives last next after := by
  obtain ⟨parsed, executed, state, holds, http, responded⟩ := execute_some receives ran taken
  have done : parsed.done = true := holds.done.trans complete
  have receiving : Receives parsed next after := { state, holds, websocketState := http }
  have view := holds_view holds
  rcases called : onRequest (handler.init after.view) after.view with ⟨userctx, asked, failed⟩
  let current : HttpRequestCtx T := { parsed with userCtx := some userctx }
  obtain ⟨answered, kept⟩ := performAll_kept current asked
  rcases performed : current.performAll asked with ⟨answering, written⟩
  simp only [performed] at kept
  have calledHere : onRequest (handler.init parsed.view) parsed.view = (userctx, asked, failed) := by
    rw [view]
    exact called
  have handled := requestDone_eq listens (createHandler_granting holds.allocator) calledHere performed
  have body : ondataBody handler request data = .ok (requestDone handler parsed) := by
    simp [ondata_http receives.websocketState, HttpRequestCtx.clientOnhttpdata, executed, done]
  rw [ondata, body, handled]
  have again : Receives answering next after := by
    rw [kept]
    exact receiving.responded answered _
  have seen : ({ parsed with userCtx := some (handler.init parsed.view) } : HttpRequestCtx T).view = after.view := view
  rw [seen]
  cases failed
  · refine ⟨answering, current, [], ?_, rfl, responded, again⟩
    simp [performed]
  · obtain ⟨last, keptLast⟩ := response_kept answering 400#16 [] true
    let refused := answering.response 400#16 [] true
    refine ⟨refused.1, current, refused.2.map .transport ++ [.failed .handler], ?_, ?_, responded, ?_⟩
    · simp only [refused, performed, ite_true, List.cons_append, List.append_assoc]
    · simp [requestsSeen]
    · simp only [refused, keptLast]
      exact again.responded last _

/-- A read that the parser accepts either is collected whole, or one of its spans is refused for good. -/
theorem read_any (listens : handler.onRequest = some onRequest) (receives : Receives request parser collected)
    (ran : Llhttp.run parser data = (next, calls, .ok)) {last : HttpRequestCtx T} {out : List HttpEvent}
    (read : ondata handler request data = .ok (last, out)) :
    (∃ after, collected.takeAll calls = some after ∧ Receives last next after ∧
        requestsSeen out = if after.done then [after.view] else []) ∨
      (collected.takeAll calls = none ∧ Refusing last ∧ requestsSeen out = []) := by
  cases taken : collected.takeAll calls with
  | none => exact .inr ⟨rfl, read_refused receives ran taken read⟩
  | some after =>
    refine .inl ⟨after, rfl, ?_⟩
    cases complete : after.done
    · obtain ⟨reached, silent, receiving, -⟩ := @read_cont T _ _ handler _ _ _ _ _ _ _ receives ran taken complete
      cases silent.symm.trans read
      exact ⟨receiving, rfl⟩
    · obtain ⟨reached, asked, rest, answered, unseen, -, receiving⟩ := read_done listens receives ran taken complete
      cases answered.symm.trans read
      refine ⟨receiving, ?_⟩
      rw [requestsSeen_append, unseen]
      simp [requestsSeen]

theorem reads_any (listens : handler.onRequest = some onRequest) {reads : List (List Byte)}
    (receives : Receives request parser collected) (continues : Llhttp.Continues parser reads calls next)
    {last : HttpRequestCtx T} {out : List HttpEvent} (read : run (ondata handler) request reads = .ok (last, out)) :
    (∃ after, collected.takeAll calls = some after ∧ Receives last next after) ∨
      (collected.takeAll calls = none ∧ Refusing last) := by
  induction continues generalizing request collected out with
  | nil parser =>
    cases read
    exact .inl ⟨collected, rfl, receives⟩
  | @cons parser middle next piece pieces calls rest ran others ih =>
    obtain ⟨between, head, tail, first, later, rfl⟩ := andThen_cases read
    rw [Collected.takeAll_append]
    rcases read_any listens receives ran first with ⟨collecting, taken, receiving, -⟩ | ⟨refused, refusing, -⟩
    · rw [taken]
      exact ih receiving later
    · rw [refused]
      exact .inr ⟨rfl, refusing.run later⟩

theorem exchange_seen (listens : handler.onRequest = some onRequest) {reads : List (List Byte)}
    {middle : Llhttp.Parser} {early late : List Callback} (receives : Receives request parser collected)
    (continues : Llhttp.Continues parser reads early middle) (ran : Llhttp.run middle data = (next, late, .ok))
    {between last : HttpRequestCtx T} {out rest : List HttpEvent}
    (read : run (ondata handler) request reads = .ok (between, out))
    (final : ondata handler between data = .ok (last, rest)) {view : RequestView} (seen : requestsSeen rest = [view]) :
    ∃ after, collected.takeAll (early ++ late) = some after ∧ view = after.view ∧ after.done = true ∧
      Receives last next after := by
  rcases reads_any listens receives continues read with ⟨collecting, taken, receiving⟩ | ⟨-, refusing⟩
  · rcases read_any listens receiving ran final with ⟨after, takenLate, reached, shown⟩ | ⟨-, -, unseen⟩
    · rw [shown] at seen
      cases complete : after.done
      · simp [complete] at seen
      · have same : after.view = view := by simpa [complete] using seen
        refine ⟨after, ?_, same.symm, complete, reached⟩
        rw [Collected.takeAll_append, taken]
        exact takenLate
    · rw [unseen] at seen
      cases seen
  · rw [(refusing.read final).2] at seen
    cases seen

theorem first_served (listens : handler.onRequest = some onRequest) {exchange : Exchange} {middle next : Llhttp.Parser}
    {early late : List Callback} {reported : ReportedRequest}
    (reads : Llhttp.Continues Llhttp.init exchange.reads early middle)
    (final : Llhttp.run middle exchange.final = (next, late, .ok)) (calls : early ++ late = reported.calls)
    (meaning : reported.meaning = exchange.content) (incomplete : .messageComplete ∉ early)
    (accepted : BodyAccepted (storeHeaders {} exchange.content.headers) exchange.content.body) :
    Served handler onRequest {} [exchange] := by
  rw [← meaning] at accepted
  rcases takeAll_init reported with ⟨-, after, taken, adds⟩ | ⟨refused, -⟩
  · rw [← calls, Collected.takeAll_append] at taken
    obtain ⟨between, first, rest⟩ := Option.bind_eq_some_iff.mp taken
    have undone : between.done = false := by simpa [incomplete] using (takeAll_url_done first).2
    obtain ⟨reached, silent, receiving, unanswered⟩ := @reads_cont T _ _ handler _ _ _ _ _ _ _ receives_init reads first undone
    obtain ⟨last, asked, tail, answered, unseen, responded, -⟩ := read_done listens receiving final rest adds.done
    have view : after.view = RequestContent.view exchange.content := by rw [adds.view, meaning]
    rw [view] at answered
    refine ⟨reached, [], last, _, silent, answered, rfl, ?_, ?_, trivial⟩
    · rw [requestsSeen_append, unseen]
      simp [requestsSeen]
    · intro before code data close after answers first usize
      rw [answers]
      apply List.mem_append_left _ (List.mem_cons_of_mem _ (List.mem_map_of_mem _))
      exact response_written (responded.trans unanswered) code close first usize
  · exact absurd accepted refused

theorem Served.single (listens : handler.onRequest = some onRequest) {exchanges : List Exchange}
    (conversation : Conversation Llhttp.init exchanges) (some_request : exchanges ≠ [])
    (served : Served handler onRequest {} exchanges) :
    ∃ exchange, exchanges = [exchange] ∧
      BodyAccepted (storeHeaders {} exchange.content.headers) exchange.content.body := by
  rcases conversation with _ | @⟨_, _, _, exchange, _, _, _, reported, reads, final, calls, meaning, _, target, rest⟩
  · exact absurd rfl some_request
  rcases served with ⟨between, out, state, tail, ran, answered, -, seen, -, served⟩
  rcases exchange_seen listens receives_init reads final ran answered seen with ⟨after, taken, -, -, receives⟩
  rw [calls] at taken
  rcases rest with _ | @⟨_, _, _, second, _, _, _, reported₂, reads₂, final₂, calls₂, meaning₂, _, _, _⟩
  · refine ⟨exchange, rfl, ?_⟩
    rcases takeAll_init reported with ⟨accepted, -⟩ | ⟨-, refused⟩
    · rwa [meaning] at accepted
    · cases refused.symm.trans taken
  · rcases served with ⟨between₂, out₂, state₂, tail₂, ran₂, answered₂, -, seen₂, -⟩
    rcases exchange_seen listens receives reads₂ final₂ ran₂ answered₂ seen₂ with ⟨after₂, taken₂, view, done, -⟩
    rw [calls₂] at taken₂
    have piled := second_url taken taken₂
    have url : second.content.url = after₂.url := by
      simpa [Collected.view, RequestContent.view, done] using congrArg RequestView.url view
    rw [meaning, meaning₂, ← url] at piled
    exact absurd (List.append_left_eq_self.mp piled.symm) target

theorem served_iff (listens : handler.onRequest = some onRequest) {exchanges : List Exchange}
    (conversation : Conversation Llhttp.init exchanges) (some_request : exchanges ≠ []) :
    Served handler onRequest {} exchanges ↔
      ∃ exchange, exchanges = [exchange] ∧
        BodyAccepted (storeHeaders {} exchange.content.headers) exchange.content.body := by
  constructor
  · exact Served.single listens conversation some_request
  · rintro ⟨exchange, rfl, accepted⟩
    rcases conversation with _ | ⟨reads, final, calls, meaning, incomplete, _, _⟩
    exact first_served listens reads final calls meaning incomplete accepted

end Conversation

section Get

def getStart : List (Byte × List Callback) := (text "GET ").map (·, [])

def getTarget (path : List Byte) : List (Byte × List Callback) := path.map fun byte => (byte, [.url [byte]])

def getEnd : List (Byte × List Callback) :=
  (text " HTTP/1.1\r\n\r").map (·, []) ++ [(0x0A#8, [.headersComplete, .messageComplete])]

def getExchange (path : List Byte) : Exchange where
  content := { url := path, headers := [], body := [] }
  reads := [getStart.map Prod.fst, path]
  final := getEnd.map Prod.fst

/-- The stream `GET path HTTP/1.1` without a header, and what follows it. -/
def getThen (path : List Byte) (rest : List (Byte × List Callback)) : List (Byte × List Callback) :=
  getStart ++ (getTarget path ++ (getEnd ++ rest))

theorem conversation_get {script rest : List (Byte × List Callback)} {path : List Byte} (target : path ≠ [])
    {exchanges : List Exchange} (others : @Conversation (scripted script .ok) rest exchanges) :
    @Conversation (scripted script .ok) (getThen path rest) (getExchange path :: exchanges) := by
  let parser := scripted script .ok
  have spans : (getTarget path).flatMap Prod.snd = (path.map fun byte => [byte]).map Callback.url := by
    simp [getTarget, Function.comp_def, List.flatMap_map, ← List.map_eq_flatMap]
  have reads : Llhttp.Continues (getThen path rest) (getExchange path).reads
      ([] ++ ((path.map fun byte => [byte]).map Callback.url ++ [])) (getEnd ++ rest) := by
    refine .cons (follow_ok getStart _) (.cons ?_ (.nil _))
    have bytes : (getTarget path).map Prod.fst = path := by simp [getTarget, Function.comp_def]
    rw [← spans, ← follow_ok, bytes]
    rfl
  let reported : ReportedRequest := ⟨path.map fun byte => [byte], [], [], by simp⟩
  have calls : [] ++ ((path.map fun byte => [byte]).map Callback.url ++ []) ++ getEnd.flatMap Prod.snd =
      reported.calls := by
    simp [reported, ReportedRequest.calls, ReportedRequest.head, getEnd, text]
  have meaning : reported.meaning = (getExchange path).content := by
    simp [reported, ReportedRequest.meaning, getExchange, ← List.flatMap_def]
  refine .cons reads (follow_ok getEnd rest) calls meaning (by simp) target others

def answerOk (userctx : Unit) (_ : RequestView) : Unit × List RequestCall × Bool :=
  (userctx, [.response 200#16 (text "ok") false], false)

def okHandler : Handler Unit where
  init _ := ()
  onRequest := some answerOk

theorem served_iff_get :
    letI := scripted (getThen (text "/a") []) .ok
    letI := halfAgain
    Served okHandler answerOk ({} : HttpRequestCtx Unit) [getExchange (text "/a")] := by
  let parser := scripted (getThen (text "/a") []) .ok
  let growth := halfAgain
  exact (served_iff rfl (conversation_get (by decide) (.nil _)) (by simp)).mpr ⟨_, rfl, .inl rfl⟩

/-- Two requests `GET /a` and `GET /b`, the second after the first was answered. -/
theorem second_get_not_served :
    letI := scripted (getThen (text "/a") (getThen (text "/b") [])) .ok
    letI := halfAgain
    ¬ Served okHandler answerOk ({} : HttpRequestCtx Unit) [getExchange (text "/a"), getExchange (text "/b")] := by
  let parser := scripted (getThen (text "/a") (getThen (text "/b") [])) .ok
  let growth := halfAgain
  intro served
  have conversation : Conversation Llhttp.init [getExchange (text "/a"), getExchange (text "/b")] :=
    conversation_get (by decide) (conversation_get (by decide) (.nil _))
  rcases Served.single rfl conversation (by simp) served with ⟨_, single, _⟩
  cases single

end Get

end ZapeProof
