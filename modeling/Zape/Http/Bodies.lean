import Zape.Http.Completing

/-! Which bodies `http_on_body` takes, and what it has stored of the others. -/
namespace ZapeProof

open Machine Zig ZapeModel

section Stored

variable [Llhttp] [GrowthPolicy] {T : Type} {request : HttpRequestCtx T} {collected : Collected}

/-- What is stored of a body is what a part of the callbacks has brought. -/
theorem callbacks_body (holds : Holds request collected) (calls : List Callback) :
    ∃ front after, front <+: calls ∧ collected.takeAll front = some after ∧
      (request.callbacks calls).1.getBody = after.body.items := by
  induction calls generalizing request collected with
  | nil =>
    refine ⟨[], collected, List.prefix_rfl, rfl, ?_⟩
    rw [← holds.body]
    rfl
  | cons call calls ih =>
    cases taken : collected.take call with
    | some middle =>
      obtain ⟨next, called, held⟩ := callback_some holds taken
      obtain ⟨front, after, part, all, stored⟩ := ih held
      refine ⟨call :: front, after, List.cons_prefix_cons.mpr ⟨rfl, part⟩, ?_, ?_⟩
      · rw [Collected.takeAll, taken]
        exact all
      · simp only [HttpRequestCtx.callbacks, called, ite_true]
        exact stored
    | none =>
      have failed := callback_none holds taken
      refine ⟨[], collected, List.nil_prefix, rfl, ?_⟩
      simp only [HttpRequestCtx.callbacks, if_neg failed]
      cases call with
      | body span =>
        have room : takeBody collected.headers collected.body span = none := Option.map_eq_none_iff.mp taken
        rw [← holds.headers, ← holds.body] at room
        rw [← holds.body]
        exact (httpOnBody_none holds.allocator room).2
      | url | headerField | headerValue | headerFieldComplete | headersComplete | headerValueComplete
      | messageComplete => cases taken

variable {parser next : Llhttp.Parser} {reads : List (List Byte)} {calls : List Callback}

theorem execute_body (receives : Receives request parser collected) {data : List Byte} {errno : Errno}
    (ran : Llhttp.run parser data = (next, calls, errno)) :
    (request.llhttpExecute data).1.getBody = (request.callbacks calls).1.getBody := by
  have quiet : ¬ request.state.error ≠ .ok := by simp [receives.state]
  rw [HttpRequestCtx.llhttpExecute, if_neg quiet, receives.state]
  simp only [ran]
  rfl

theorem afterReads_body (receives : Receives request parser collected)
    (continues : Llhttp.Continues parser reads calls next) :
    ∃ front after, front <+: calls ∧ collected.takeAll front = some after ∧
      (afterReads request reads).getBody = after.body.items := by
  induction continues generalizing request collected with
  | nil parser =>
    refine ⟨[], collected, List.prefix_rfl, rfl, ?_⟩
    rw [← receives.holds.body]
    rfl
  | @cons parser middle next data reads calls rest ran others ih =>
    cases taken : collected.takeAll calls with
    | none =>
      obtain ⟨last, executed, error, -⟩ := execute_none receives ran taken
      obtain ⟨front, after, part, all, stored⟩ := callbacks_body receives.holds calls
      have failed : last.state.error ≠ .ok := by simp [error]
      have same := execute_body receives ran
      rw [executed] at same
      rw [afterReads_cons executed, afterReads_refused failed]
      exact ⟨front, after, part.trans (List.prefix_append _ _), all, same.trans stored⟩
    | some between =>
      obtain ⟨last, executed, state, holds, http, -⟩ := execute_some receives ran taken
      obtain ⟨front, after, part, all, stored⟩ := ih { state, holds, websocketState := http }
      refine ⟨calls ++ front, after, List.prefix_append_right_inj calls |>.mpr part, ?_, ?_⟩
      · rw [Collected.takeAll_append, taken]
        exact all
      · rw [afterReads_cons executed]
        exact stored

end Stored

section Room

variable [GrowthPolicy] {collected after : Collected}

theorem takeAll_bodiless {calls : List Callback} (bodiless : ∀ span, .body span ∉ calls)
    (taken : collected.takeAll calls = some after) : after.body = collected.body := by
  induction calls generalizing collected with
  | nil =>
    cases taken
    rfl
  | cons call calls ih =>
    obtain ⟨middle, first, others⟩ := Option.bind_eq_some_iff.mp taken
    have later := ih (fun span member => bodiless span (List.mem_cons_of_mem _ member)) others
    rw [later]
    cases call with
    | body span => exact absurd List.mem_cons_self (bodiless span)
    | url | headerField | headerValue | headerFieldComplete | headersComplete | headerValueComplete
    | messageComplete =>
      cases first
      rfl

def opening (reported : ReportedRequest) : List Callback :=
  reported.target.map .url ++ reported.headers.flatMap ReportedHeader.calls ++ [.headersComplete]

omit [GrowthPolicy] in
theorem trailed_opening (reported : ReportedRequest) (trailers : List ReportedHeader) :
    reported.trailed trailers = opening reported ++
      (reported.content.map .body ++ (trailers.flatMap ReportedHeader.calls ++ [.messageComplete])) := by
  simp [ReportedRequest.trailed, ReportedRequest.head, opening]

omit [GrowthPolicy] in
theorem opening_bodiless (reported : ReportedRequest) (span : List Byte) : .body span ∉ opening reported := by
  simp [opening, ReportedHeader.calls]

theorem takeAll_opening (reported : ReportedRequest) :
    Collected.takeAll {} (opening reported) = some {
      url := reported.meaning.url, headers := storeHeaders {} reported.meaning.headers } := by
  have headers := @takeAll_headers _ { url := reported.meaning.url } ⟨rfl, rfl⟩ reported.headers
  rw [opening, Collected.takeAll_append, Collected.takeAll_append, Collected.takeAll_url, Option.bind_some]
  simp only [List.nil_append]
  rw [show reported.target.flatten = reported.meaning.url from rfl, headers, Option.bind_some]
  rfl

/-- Where no span fits, nothing is ever stored. -/
theorem nothing_stored {reported : ReportedRequest} {trailers : List ReportedHeader} {front : List Callback}
    (refuses : ∀ span, span ≠ [] → takeBody (storeHeaders {} reported.meaning.headers) {} span = none)
    (some_body : reported.content ≠ []) (part : front <+: reported.trailed trailers)
    (taken : Collected.takeAll {} front = some after) : after.body.items = [] := by
  rw [trailed_opening] at part
  rcases List.prefix_or_prefix_of_prefix part (List.prefix_append (opening reported) _) with early | ⟨later, rfl⟩
  · have bodiless : ∀ span, .body span ∉ front := fun span member => opening_bodiless reported span (early.subset member)
    rw [takeAll_bodiless bodiless taken]
  · rw [Collected.takeAll_append, takeAll_opening, Option.bind_some] at taken
    cases later with
    | nil =>
      cases taken
      rfl
    | cons call later =>
      obtain ⟨span, spans, content⟩ := List.exists_cons_of_ne_nil some_body
      have rest := (List.prefix_append_right_inj (opening reported)).mp part
      rw [content, List.map_cons, List.cons_append, List.cons_prefix_cons] at rest
      obtain ⟨rfl, -⟩ := rest
      have full := refuses span (reported.nonempty span (by simp [content]))
      rw [Collected.takeAll, Collected.take, full] at taken
      cases taken

end Room

section Limits

/-- The length that `llhttp` frames a body with is the one announced. It accepts no second one, and none beside
    `Transfer-Encoding`. -/
def Framed (reported : ReportedRequest) : Prop :=
  ∀ cl clInt, lastValue (text "content-length") reported.meaning.headers = some cl →
    fmt.parseInt (2 ^ 32) cl = some clInt → reported.meaning.body = [] ∨ reported.meaning.body.length = clInt

variable [GrowthPolicy] {reported : ReportedRequest}

omit [GrowthPolicy] in
theorem contentLength_get (headers : List (List Byte × List Byte)) :
    (storeHeaders {} headers).get (text "content-length") = lastValue (text "content-length") headers :=
  storeHeaders_get (by decide) headers

theorem ensureTotalCapacity_le (list : ArrayList Byte) (length : Nat) :
    length ≤ (list.ensureTotalCapacity length).capacity := by
  unfold ArrayList.ensureTotalCapacity
  split
  · assumption
  · exact GrowthPolicy.le_growCapacity list.capacity length

theorem long_refused (framed : Framed reported) (long : maxBodyLen < reported.meaning.body.length) :
    ¬ BodyAccepted (storeHeaders {} reported.meaning.headers) reported.meaning.body := by
  rintro (none | ⟨cl, clInt, announced, parsed, within, -⟩)
  · simp [none] at long
  · rw [contentLength_get] at announced
    rcases framed cl clInt announced parsed with none | same
    · simp [none] at long
    · omega

theorem long_unroomed (framed : Framed reported) (long : maxBodyLen < reported.meaning.body.length)
    {span : List Byte} (some_span : span ≠ []) :
    takeBody (storeHeaders {} reported.meaning.headers) {} span = none := by
  have empty : ({} : ArrayList Byte).capacity = 0 := rfl
  have positive := List.length_pos_of_ne_nil some_span
  rw [takeBody, makeRoom, if_pos empty, contentLength_get]
  cases announced : lastValue (text "content-length") reported.meaning.headers with
  | none =>
    rw [Option.bind_some, if_pos]
    simpa using positive
  | some cl =>
    cases parsed : fmt.parseInt (2 ^ 32) cl with
    | none => simp only [parsed, Option.bind_none]
    | some clInt =>
      rcases framed cl clInt announced parsed with none | same
      · simp [none] at long
      · have beyond : clInt > maxBodyLen := by omega
        simp only [parsed, if_pos beyond, Option.bind_none]

theorem accepted_iff (framed : Framed reported) (short : reported.meaning.body.length ≤ maxBodyLen) :
    BodyAccepted (storeHeaders {} reported.meaning.headers) reported.meaning.body ↔
      reported.meaning.body = [] ∨ ∃ cl, lastValue (text "content-length") reported.meaning.headers = some cl ∧
        (fmt.parseInt (2 ^ 32) cl).isSome := by
  rw [BodyAccepted, contentLength_get]
  constructor
  · rintro (none | ⟨cl, clInt, announced, parsed, -⟩)
    · exact .inl none
    · exact .inr ⟨cl, announced, by rw [parsed]; rfl⟩
  · rintro (none | ⟨cl, announced, readable⟩)
    · exact .inl none
    · obtain ⟨clInt, parsed⟩ := Option.isSome_iff_exists.mp readable
      rcases framed cl clInt announced parsed with none | same
      · exact .inl none
      · have room := ensureTotalCapacity_le {} clInt
        exact .inr ⟨cl, clInt, announced, parsed, by omega, by omega⟩

end Limits

section Taken

variable [Llhttp] [GrowthPolicy]

/-- No span is refused, and the body is there when the message is complete. -/
def BodyTaken (T : Type) (reads : List (List Byte)) (late : List Callback) (body : List Byte) : Prop :=
  ∃ complete : HttpRequestCtx T, CompletesAs reads late complete ∧ complete.getBody = body

/-- The message does not complete, and no more than `MAX_BODY_LEN` bytes are stored at any point. -/
def BodyRefused (T : Type) (reads : List (List Byte)) (late : List Callback) : Prop :=
  (∀ complete : HttpRequestCtx T, ¬ CompletesAs reads late complete) ∧
    (∀ before, before <+: reads → (afterReads ({} : HttpRequestCtx T) before).getBody.length ≤ maxBodyLen) ∧
    ((afterReads ({} : HttpRequestCtx T) reads).state.error = .ok → ∀ before, before <+: late →
      ((afterReads ({} : HttpRequestCtx T) reads).callbacks before).1.getBody.length ≤ maxBodyLen)

omit [GrowthPolicy] in
theorem continues_part {parser next : Llhttp.Parser} {reads before : List (List Byte)} {calls : List Callback}
    (continues : Llhttp.Continues parser reads calls next) (part : before <+: reads) :
    ∃ early middle, Llhttp.Continues parser before early middle ∧ early <+: calls := by
  induction continues generalizing before with
  | nil parser =>
    rw [List.prefix_nil.mp part]
    exact ⟨[], parser, .nil parser, List.prefix_rfl⟩
  | @cons parser middle next data reads calls rest ran others ih =>
    cases before with
    | nil => exact ⟨[], parser, .nil parser, List.nil_prefix⟩
    | cons read before =>
      obtain ⟨rfl, later⟩ := List.cons_prefix_cons.mp part
      obtain ⟨early, reached, continues, within⟩ := ih later
      exact ⟨calls ++ early, reached, .cons ran continues, (List.prefix_append_right_inj calls).mpr within⟩

variable {T : Type} {reported : ReportedRequest} {trailers : List ReportedHeader} {reads : List (List Byte)}
  {final : List Byte} {late : List Callback}

theorem body_taken (reports : Reports (reported.trailed trailers) reads final late)
    (accepted : BodyAccepted (storeHeaders {} reported.meaning.headers) reported.meaning.body) :
    BodyTaken T reads late reported.meaning.body := by
  rcases @takeAll_trailed _ {} ⟨rfl, rfl⟩ rfl reported trailers with ⟨-, after, taken, adds⟩ | ⟨refused, -⟩
  · obtain ⟨complete, completes, holds⟩ := completes_some reports taken
    refine ⟨complete, completes, ?_⟩
    rw [HttpRequestCtx.getBody, holds.body]
    exact adds.body
  · exact absurd accepted refused

theorem body_accepted (reports : Reports (reported.trailed trailers) reads final late)
    {complete : HttpRequestCtx T} (completes : CompletesAs reads late complete) :
    BodyAccepted (storeHeaders {} reported.meaning.headers) reported.meaning.body := by
  obtain ⟨after, taken, -⟩ := completes_holds reports completes
  rcases @takeAll_trailed _ {} ⟨rfl, rfl⟩ rfl reported trailers with ⟨accepted, -⟩ | ⟨-, refused⟩
  · exact accepted
  · cases refused.symm.trans taken

theorem body_refused (framed : Framed reported) (reports : Reports (reported.trailed trailers) reads final late)
    (long : maxBodyLen < reported.meaning.body.length) : BodyRefused T reads late := by
  have some_body : reported.content ≠ [] := by
    intro none
    simp [ReportedRequest.meaning, none] at long
  have nothing : ∀ front after, front <+: reported.trailed trailers → Collected.takeAll {} front = some after →
      after.body.items.length ≤ maxBodyLen := by
    intro front after part taken
    rw [nothing_stored (fun _ => long_unroomed framed long) some_body part taken]
    exact Nat.zero_le _
  refine ⟨fun complete completes => long_refused framed long (body_accepted reports completes), ?_, ?_⟩
  · intro before part
    obtain ⟨early, rest, middle, next, errno, continues, -, calls⟩ := reports
    obtain ⟨sooner, reached, begins, within⟩ := continues_part continues part
    obtain ⟨front, after, inside, taken, stored⟩ := afterReads_body (@receives_init T _) begins
    rw [stored]
    refine nothing front after ((inside.trans within).trans ?_) taken
    rw [← calls]
    exact List.prefix_append early late
  · intro error before part
    obtain ⟨early, rest, middle, next, errno, continues, -, calls⟩ := reports
    cases first : Collected.takeAll {} early with
    | none => exact absurd error (afterReads_none receives_init continues first)
    | some between =>
      have receives := @afterReads_some _ T _ _ _ _ _ _ _ _ receives_init continues first
      obtain ⟨front, after, inside, taken, stored⟩ := callbacks_body receives.holds before
      rw [stored]
      refine nothing (early ++ front) after ?_ ?_
      · rw [← calls]
        exact (List.prefix_append_right_inj early).mpr (inside.trans part)
      · rw [Collected.takeAll_append, first]
        exact taken

/-- A body within `MAX_BODY_LEN` is taken when it is empty or its length announced, and never in chunks. -/
theorem body_taken_iff (T : Type) (framed : Framed reported)
    (reports : Reports (reported.trailed trailers) reads final late) :
    ((reported.meaning.body.length ≤ maxBodyLen → BodyTaken T reads late reported.meaning.body) ∧
        (maxBodyLen < reported.meaning.body.length → BodyRefused T reads late)) ↔
      maxBodyLen < reported.meaning.body.length ∨ reported.meaning.body = [] ∨
        ∃ cl, lastValue (text "content-length") reported.meaning.headers = some cl ∧
          (fmt.parseInt (2 ^ 32) cl).isSome := by
  constructor
  · rintro ⟨taken, -⟩
    by_cases long : maxBodyLen < reported.meaning.body.length
    · exact .inl long
    · have short : reported.meaning.body.length ≤ maxBodyLen := by omega
      obtain ⟨complete, completes, -⟩ := taken short
      exact .inr ((accepted_iff framed short).mp (body_accepted reports completes))
  · intro condition
    refine ⟨fun short => ?_, body_refused framed reports⟩
    rcases condition with long | announced
    · omega
    · exact body_taken reports ((accepted_iff framed short).mpr announced)

end Taken

section Post

/-- `POST /a` with one header and the body `hi`. -/
def postReport (name value : List Byte) : ReportedRequest where
  target := (text "/a").map fun byte => [byte]
  headers := [⟨name.map fun byte => [byte], value.map fun byte => [byte]⟩]
  content := [text "h", text "i"]
  nonempty := by decide

def postScript (name value : List Byte) (content : List (Byte × List Callback)) : List (Byte × List Callback) :=
  silent (text "POST ") ++ spans .url (text "/a") ++ silent (text " HTTP/1.1\r\n") ++ headerScript name value ++
    silent (text "\r") ++ [(0x0A#8, [.headersComplete])] ++ content

def announcedScript : List (Byte × List Callback) :=
  postScript (text "Content-Length") (text "2")
    [(0x68#8, [.body (text "h")]), (0x69#8, [.body (text "i"), .messageComplete])]

def chunkedScript : List (Byte × List Callback) :=
  postScript (text "Transfer-Encoding") (text "chunked")
    (silent (text "2\r\n") ++ spans .body (text "hi") ++ silent (text "\r\n0\r\n\r") ++
      [(0x0A#8, [.messageComplete])])

theorem script_reports {script : List (Byte × List Callback)} {calls : List Callback}
    (reported : script.flatMap Prod.snd = calls) :
    @Reports (scripted script .ok) calls [] (script.map Prod.fst) (script.flatMap Prod.snd) := by
  have whole := follow_ok script []
  rw [List.append_nil] at whole
  exact ⟨[], [], script, [], .ok, @Llhttp.Continues.nil (scripted script .ok) script,
    by rw [List.append_nil]; exact whole, reported⟩

theorem announced_body_taken :
    letI := scripted announcedScript .ok
    letI := halfAgain
    BodyTaken Unit [] (announcedScript.flatMap Prod.snd) (text "hi") := by
  let parser := scripted announcedScript .ok
  let growth := halfAgain
  have reports := @script_reports announcedScript
    ((postReport (text "Content-Length") (text "2")).trailed []) (by decide)
  have framed : Framed (postReport (text "Content-Length") (text "2")) := by
    intro cl clInt announced parsed
    have value : cl = text "2" := Option.some.inj (announced.symm.trans (by decide))
    rw [value] at parsed
    exact .inr (Option.some.inj ((by decide : fmt.parseInt (2 ^ 32) (text "2") = some 2).symm.trans parsed))
  exact ((body_taken_iff Unit framed reports).mpr (.inr (.inr ⟨text "2", by decide, by decide⟩))).1 (by decide)

theorem chunked_body_refused :
    letI := scripted chunkedScript .ok
    letI := halfAgain
    Reports ((postReport (text "Transfer-Encoding") (text "chunked")).trailed []) [] (chunkedScript.map Prod.fst)
        (chunkedScript.flatMap Prod.snd) ∧
      (text "hi").length ≤ maxBodyLen ∧
      ¬ BodyTaken Unit [] (chunkedScript.flatMap Prod.snd) (text "hi") := by
  let parser := scripted chunkedScript .ok
  let growth := halfAgain
  have reports := @script_reports chunkedScript
    ((postReport (text "Transfer-Encoding") (text "chunked")).trailed []) (by decide)
  refine ⟨reports, by decide, ?_⟩
  rintro ⟨complete, completes, -⟩
  rcases body_accepted reports completes with none | ⟨cl, -, announced, -⟩
  · cases none
  · rw [contentLength_get] at announced
    cases announced

end Post

end ZapeProof
