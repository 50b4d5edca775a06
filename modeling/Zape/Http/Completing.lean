import Zape.Http.Serving
import Zape.Http.Script
import Mathlib.Data.List.Induction

/-! The first request of a connection, from its first read to the end of its message. -/
namespace ZapeProof

open Machine Zig ZapeModel

section Reads

variable [Llhttp]

/-- The parser reports these callbacks over some reads, the last of them inside `final`. -/
def Reports (calls : List Callback) (reads : List (List Byte)) (final : List Byte) (late : List Callback) : Prop :=
  ∃ early rest middle next errno, Llhttp.Continues Llhttp.init reads early middle ∧
    Llhttp.run middle final = (next, late ++ rest, errno) ∧ early ++ late = calls

variable {T : Type} [GrowthPolicy]

def afterReads (request : HttpRequestCtx T) (reads : List (List Byte)) : HttpRequestCtx T :=
  reads.foldl (fun request data => (request.clientOnhttpdata data).1) request

/-- No callback fails, and `http_on_message_complete` leaves the request like this. -/
def CompletesAs (reads : List (List Byte)) (late : List Callback) (complete : HttpRequestCtx T) : Prop :=
  (afterReads ({} : HttpRequestCtx T) reads).state.error = .ok ∧
    (afterReads ({} : HttpRequestCtx T) reads).callbacks late = (complete, 0)

variable {request : HttpRequestCtx T} {parser next : Llhttp.Parser} {collected after : Collected}
  {reads : List (List Byte)} {calls late : List Callback} {final : List Byte}

theorem afterReads_cons {last : HttpRequestCtx T} {data : List Byte} {errno : Errno}
    (executed : request.llhttpExecute data = (last, errno)) (reads : List (List Byte)) :
    afterReads request (data :: reads) = afterReads last reads := by
  rw [afterReads, List.foldl_cons, clientOnhttpdata_request, executed]
  rfl

theorem afterReads_refused (refused : request.state.error ≠ .ok) (reads : List (List Byte)) :
    afterReads request reads = request := by
  induction reads with
  | nil => rfl
  | cons data reads ih =>
    have executed : request.llhttpExecute data = (request, request.state.error) := by
      rw [HttpRequestCtx.llhttpExecute, if_pos refused]
    rw [afterReads_cons executed, ih]

theorem afterReads_some (receives : Receives request parser collected)
    (continues : Llhttp.Continues parser reads calls next) (taken : collected.takeAll calls = some after) :
    Receives (afterReads request reads) next after := by
  induction continues generalizing request collected with
  | nil parser =>
    cases taken
    exact receives
  | cons ran others ih =>
    rw [Collected.takeAll_append] at taken
    obtain ⟨between, first, later⟩ := Option.bind_eq_some_iff.mp taken
    obtain ⟨last, executed, state, holds, http, -⟩ := execute_some receives ran first
    rw [afterReads_cons executed]
    exact ih { state, holds, websocketState := http } later

theorem afterReads_none (receives : Receives request parser collected)
    (continues : Llhttp.Continues parser reads calls next) (refused : collected.takeAll calls = none) :
    (afterReads request reads).state.error ≠ .ok := by
  induction continues generalizing request collected with
  | nil parser => cases refused
  | @cons parser middle next data reads calls rest ran others ih =>
    cases taken : collected.takeAll calls with
    | none =>
      obtain ⟨last, executed, error, -⟩ := execute_none receives ran taken
      have failed : last.state.error ≠ .ok := by simp [error]
      rw [afterReads_cons executed, afterReads_refused failed]
      exact failed
    | some between =>
      obtain ⟨last, executed, state, holds, http, -⟩ := execute_some receives ran taken
      rw [Collected.takeAll_append, taken] at refused
      rw [afterReads_cons executed]
      exact ih { state, holds, websocketState := http } refused

theorem completes_some (reports : Reports calls reads final late) (taken : Collected.takeAll {} calls = some after) :
    ∃ complete : HttpRequestCtx T, CompletesAs reads late complete ∧ Holds complete after := by
  obtain ⟨early, rest, middle, next, errno, continues, ran, rfl⟩ := reports
  rw [Collected.takeAll_append] at taken
  obtain ⟨between, first, later⟩ := Option.bind_eq_some_iff.mp taken
  have receives := @afterReads_some _ T _ _ _ _ _ _ _ _ receives_init continues first
  obtain ⟨complete, called, holds⟩ := callbacks_some receives.holds later
  exact ⟨complete, ⟨by rw [receives.state], called⟩, holds⟩

theorem completes_holds {complete : HttpRequestCtx T} (reports : Reports calls reads final late)
    (completes : CompletesAs reads late complete) :
    ∃ after, Collected.takeAll {} calls = some after ∧ Holds complete after := by
  obtain ⟨early, rest, middle, next, errno, continues, ran, rfl⟩ := reports
  obtain ⟨error, called⟩ := completes
  rw [Collected.takeAll_append]
  cases first : Collected.takeAll {} early with
  | none => exact absurd error (afterReads_none receives_init continues first)
  | some between =>
    have receives := @afterReads_some _ T _ _ _ _ _ _ _ _ receives_init continues first
    cases later : between.takeAll late with
    | none =>
      have failed := callbacks_none receives.holds later
      rw [called] at failed
      exact absurd rfl failed
    | some after =>
      obtain ⟨reached, same, holds⟩ := callbacks_some receives.holds later
      cases same.symm.trans called
      exact ⟨after, later, holds⟩

/-- When the read ends with the request, this is what a handler gets. -/
theorem completed_read {complete : HttpRequestCtx T} {early : List Callback} {middle : Llhttp.Parser} {errno : Errno}
    (continues : Llhttp.Continues Llhttp.init reads early middle) (ran : Llhttp.run middle final = (next, late, errno))
    (completes : CompletesAs reads late complete) :
    (afterReads ({} : HttpRequestCtx T) (reads ++ [final])).view = complete.view := by
  obtain ⟨error, called⟩ := completes
  cases taken : Collected.takeAll {} early with
  | none => exact absurd error (afterReads_none receives_init continues taken)
  | some between =>
    have receives := @afterReads_some _ T _ _ _ _ _ _ _ _ receives_init continues taken
    have quiet : ¬ (afterReads ({} : HttpRequestCtx T) reads).state.error ≠ .ok := by simp [error]
    have executed : (afterReads ({} : HttpRequestCtx T) reads).llhttpExecute final =
        ({ complete with state := { current := next, error := errno } }, errno) := by
      rw [HttpRequestCtx.llhttpExecute, if_neg quiet, receives.state]
      simp only [ran, called, ite_true]
    have last : afterReads ({} : HttpRequestCtx T) (reads ++ [final]) =
        ((afterReads ({} : HttpRequestCtx T) reads).clientOnhttpdata final).1 := by
      rw [afterReads, List.foldl_append]
      rfl
    rw [last, clientOnhttpdata_request, executed]
    rfl

end Reads

section Fields

/-- The value of the last field with this name, whatever the case of its letters. -/
def lastValue (name : List Byte) (fields : List (List Byte × List Byte)) : Option (List Byte) :=
  (fields.reverse.find? fun field => ascii.lowerString field.1 = ascii.lowerString name).map Prod.snd

theorem lastValue_snoc (name : List Byte) (fields : List (List Byte × List Byte)) (field : List Byte × List Byte) :
    lastValue name (fields ++ [field]) =
      if ascii.lowerString field.1 = ascii.lowerString name then some field.2 else lastValue name fields := by
  by_cases named : ascii.lowerString field.1 = ascii.lowerString name <;> simp [lastValue, named]

theorem storeHeaders_get {name : List Byte} (lower : ascii.lowerString name = name)
    (fields : List (List Byte × List Byte)) : (storeHeaders {} fields).get name = lastValue name fields := by
  induction fields using List.reverseRecOn with
  | nil => rfl
  | append_singleton fields field ih =>
    have stored : storeHeaders {} (fields ++ [field]) =
        (storeHeaders {} fields).put (ascii.lowerString field.1) field.2 := by
      simp [storeHeaders]
    rw [stored, lastValue_snoc, lower, ← ih, StringHashMap.put]
    simp only [eq_comm]

variable [Llhttp] [GrowthPolicy] {T : Type}

theorem completed_request {reported : ReportedRequest} {trailers : List ReportedHeader} {reads : List (List Byte)}
    {final : List Byte} {late : List Callback} {complete : HttpRequestCtx T}
    (reports : Reports (reported.trailed trailers) reads final late) (completes : CompletesAs reads late complete) :
    complete.getURL = some reported.meaning.url ∧
      ∀ name, ascii.lowerString name = name →
        complete.headers.get name = lastValue name (reported.fields trailers) := by
  obtain ⟨after, taken, holds⟩ := completes_holds reports completes
  rcases @takeAll_trailed _ {} ⟨rfl, rfl⟩ rfl reported trailers with ⟨-, reached, all, adds⟩ | ⟨-, refused⟩
  · cases all.symm.trans taken
    constructor
    · rw [HttpRequestCtx.getURL, holds.done, holds.url, adds.done, adds.url]
      rfl
    · intro name lower
      rw [holds.headers, adds.headers, storeHeaders_get lower]
  · cases refused.symm.trans taken

end Fields

section Sample

def twiceNamed : ReportedRequest where
  target := [text "/", text "a"]
  headers := [⟨[text "Na", text "me"], [text "1"]⟩, ⟨[text "NAME"], []⟩]
  content := []
  nonempty := no_spans

/-- `GET /a` up to the first half of a header's name. -/
def twiceNamedStart : List (Byte × List Callback) :=
  silent (text "GET ") ++ spans .url (text "/a") ++ silent (text " HTTP/1.1\r\nN") ++
    [(0x61#8, [.headerField (text "Na")])]

/-- The other half, its value, and an empty header with the same name. -/
def twiceNamedEnd : List (Byte × List Callback) :=
  silent (text "m") ++
    [(0x65#8, [.headerField (text "me")]), (0x3A#8, [.headerFieldComplete]), (0x31#8, [.headerValue (text "1")]),
      (0x0D#8, [.headerValueComplete]), (0x0A#8, [])] ++ silent (text "NAM") ++
    [(0x45#8, [.headerField (text "NAME")]), (0x3A#8, [.headerFieldComplete]), (0x0D#8, [.headerValueComplete])] ++
    silent (text "\n\r") ++ [(0x0A#8, [.headersComplete, .messageComplete])]

theorem completed_twice_named :
    letI := scripted (twiceNamedStart ++ twiceNamedEnd) .ok
    letI := halfAgain
    ∃ complete : HttpRequestCtx Unit,
      CompletesAs [text "GET /a HTTP/1.1\r\nNa"] (twiceNamedEnd.flatMap Prod.snd) complete ∧
        complete.getURL = some (text "/a") ∧ complete.headers.get (text "name") = some [] ∧
        complete.headers.get (text "nam") = none := by
  let parser := scripted (twiceNamedStart ++ twiceNamedEnd) .ok
  let growth := halfAgain
  have start : twiceNamedStart.map Prod.fst = text "GET /a HTTP/1.1\r\nNa" := by decide
  have calls : twiceNamedStart.flatMap Prod.snd ++ twiceNamedEnd.flatMap Prod.snd = twiceNamed.trailed [] := by decide
  have first := follow_ok twiceNamedStart twiceNamedEnd
  have last := follow_ok twiceNamedEnd []
  rw [start] at first
  rw [List.append_nil] at last
  have reads := Llhttp.Continues.cons first (.nil twiceNamedEnd)
  rw [List.append_nil] at reads
  have reports : Reports (twiceNamed.trailed []) [text "GET /a HTTP/1.1\r\nNa"]
      (twiceNamedEnd.map Prod.fst) (twiceNamedEnd.flatMap Prod.snd) :=
    ⟨_, [], _, _, .ok, reads, by rw [List.append_nil]; exact last, calls⟩
  rcases @takeAll_trailed _ {} ⟨rfl, rfl⟩ rfl twiceNamed [] with ⟨-, after, taken, -⟩ | ⟨refused, -⟩
  · obtain ⟨complete, completes, -⟩ := @completes_some _ Unit _ _ _ _ _ _ reports taken
    have fields := completed_request reports completes
    refine ⟨complete, completes, fields.1, ?_, ?_⟩
    · rw [fields.2 _ (by decide)]
      decide
    · rw [fields.2 _ (by decide)]
      decide
  · exact absurd (.inl rfl) refused

end Sample

end ZapeProof
