import Zape.Http.Server

/-! What the callbacks of the parser have collected, as long as memory lasts. -/
namespace ZapeProof

open Machine Zig ZapeModel

structure Collected where
  url : List Byte := []
  field : List Byte := []
  value : List Byte := []
  headers : StringHashMap (List Byte) := {}
  body : ArrayList Byte := {}
  done : Bool := false

section Url

def urlBytes (calls : List Callback) : List Byte :=
  calls.flatMap fun
    | .url span => span
    | _ => []

theorem urlBytes_header (header : ReportedHeader) : urlBytes header.calls = [] := by
  simp [urlBytes, ReportedHeader.calls]

theorem urlBytes_reported (reported : ReportedRequest) : urlBytes reported.calls = reported.meaning.url := by
  have headers : urlBytes (reported.headers.flatMap ReportedHeader.calls) = [] := by
    rw [urlBytes, List.flatMap_assoc]
    exact List.flatMap_eq_nil_iff.mpr fun header _ => urlBytes_header header
  have content : urlBytes (reported.content.map .body) = [] := by simp [urlBytes]
  have target : urlBytes (reported.target.map .url) = reported.target.flatten := by
    rw [urlBytes, List.flatMap_map, List.flatMap_def]
    simp
  unfold urlBytes at headers content target ⊢
  simp [ReportedRequest.calls, ReportedRequest.head, ReportedRequest.meaning, headers, content, target]

end Url

section Abstract

variable [GrowthPolicy]

/-- The room for the body is fixed by the header when its first bytes come. -/
def makeRoom (headers : StringHashMap (List Byte)) (body : ArrayList Byte) : Option (ArrayList Byte) :=
  if body.capacity = 0 then
    match headers.get (text "content-length") with
    | none => some body
    | some cl =>
      match fmt.parseInt (2 ^ 32) cl with
      | none => none
      | some clInt => if clInt > maxBodyLen then none else some (body.ensureTotalCapacity clInt)
  else some body

def takeBody (headers : StringHashMap (List Byte)) (body : ArrayList Byte) (span : List Byte) :
    Option (ArrayList Byte) :=
  (makeRoom headers body).bind fun body =>
    if body.items.length + span.length > body.capacity then none
    else some { body with items := body.items ++ span }

namespace Collected

def take (collected : Collected) : Callback → Option Collected
  | .url span => some { collected with url := collected.url ++ span }
  | .headerField span => some { collected with field := collected.field ++ span }
  | .headerValue span => some { collected with value := collected.value ++ span }
  | .headerFieldComplete | .headersComplete => some collected
  | .headerValueComplete => some { collected with
      headers := collected.headers.put (ascii.lowerString collected.field) collected.value
      field := []
      value := [] }
  | .body span => (takeBody collected.headers collected.body span).map fun body => { collected with body }
  | .messageComplete => some { collected with done := true }

def takeAll (collected : Collected) : List Callback → Option Collected
  | [] => some collected
  | call :: calls => (collected.take call).bind fun next => next.takeAll calls

def view (collected : Collected) : RequestView where
  url := if collected.done then some collected.url else none
  headers := collected.headers
  body := collected.body.items

theorem takeAll_append (collected : Collected) (left right : List Callback) :
    collected.takeAll (left ++ right) = (collected.takeAll left).bind fun next => next.takeAll right := by
  induction left generalizing collected with
  | nil => rfl
  | cons call left ih =>
    simp only [List.cons_append, takeAll, Option.bind_assoc]
    congr 1
    funext next
    exact ih next

end Collected

namespace Collected

theorem takeAll_url (collected : Collected) (spans : List (List Byte)) :
    collected.takeAll (spans.map .url) = some { collected with url := collected.url ++ spans.flatten } := by
  induction spans generalizing collected with
  | nil => simp [takeAll]
  | cons span spans ih => simp [takeAll, take, ih]

theorem takeAll_field (collected : Collected) (spans : List (List Byte)) :
    collected.takeAll (spans.map .headerField) = some { collected with field := collected.field ++ spans.flatten } := by
  induction spans generalizing collected with
  | nil => simp [takeAll]
  | cons span spans ih => simp [takeAll, take, ih]

theorem takeAll_value (collected : Collected) (spans : List (List Byte)) :
    collected.takeAll (spans.map .headerValue) = some { collected with value := collected.value ++ spans.flatten } := by
  induction spans generalizing collected with
  | nil => simp [takeAll]
  | cons span spans ih => simp [takeAll, take, ih]

end Collected

/-- The headers by their lower-case names, a later one over an earlier one. -/
def storeHeaders (headers : StringHashMap (List Byte)) (pairs : List (List Byte × List Byte)) :
    StringHashMap (List Byte) :=
  pairs.foldl (fun map pair => map.put (ascii.lowerString pair.1) pair.2) headers

/-- No header is half collected. -/
structure Collected.Settled (collected : Collected) : Prop where
  field : collected.field = []
  value : collected.value = []

theorem takeAll_headers {collected : Collected} (settled : collected.Settled) (headers : List ReportedHeader) :
    collected.takeAll (headers.flatMap ReportedHeader.calls) = some { collected with
      headers := storeHeaders collected.headers
        (headers.map fun header => (header.field.flatten, header.value.flatten)) } := by
  induction headers generalizing collected with
  | nil => rfl
  | cons header headers ih =>
    obtain ⟨url, field, value, stored, body, done⟩ := collected
    obtain ⟨rfl, rfl⟩ := settled
    have one : Collected.takeAll { url, field := [], value := [], headers := stored, body, done } header.calls =
        some { url, headers := stored.put (ascii.lowerString header.field.flatten) header.value.flatten, body,
               done } := by
      simp [ReportedHeader.calls, Collected.takeAll_append, Collected.takeAll_field, Collected.takeAll_value,
        Collected.takeAll, Collected.take]
    rw [List.flatMap_cons, Collected.takeAll_append, one, Option.bind_some, ih ⟨rfl, rfl⟩]
    rfl

/-- A body within the length announced, which has to be announced and not beyond `MAX_BODY_LEN`. -/
def BodyAccepted (headers : StringHashMap (List Byte)) (body : List Byte) : Prop :=
  body = [] ∨ ∃ cl clInt, headers.get (text "content-length") = some cl ∧ fmt.parseInt (2 ^ 32) cl = some clInt ∧
    clInt ≤ maxBodyLen ∧ body.length ≤ (({} : ArrayList Byte).ensureTotalCapacity clInt).capacity

theorem makeRoom_of_room {headers : StringHashMap (List Byte)} {body : ArrayList Byte} (room : body.capacity ≠ 0) :
    makeRoom headers body = some body := by
  rw [makeRoom, if_neg room]

theorem makeRoom_items {headers : StringHashMap (List Byte)} {body room : ArrayList Byte}
    (made : makeRoom headers body = some room) : room.items = body.items := by
  unfold makeRoom at made
  split at made
  · split at made
    · cases made
      rfl
    · split at made
      · cases made
      · split at made
        · cases made
        · cases made
          simp
  · cases made
    rfl

theorem takeAll_room {collected : Collected} (room : collected.body.capacity ≠ 0)
    (within : collected.body.items.length ≤ collected.body.capacity) (spans : List (List Byte)) :
    collected.takeAll (spans.map .body) =
      if collected.body.items.length + spans.flatten.length ≤ collected.body.capacity then
        some { collected with body := { collected.body with items := collected.body.items ++ spans.flatten } }
      else none := by
  induction spans generalizing collected with
  | nil => simp [Collected.takeAll, within]
  | cons span spans ih =>
    rw [List.map_cons, Collected.takeAll, Collected.take, takeBody, makeRoom_of_room room, Option.bind_some]
    by_cases full : collected.body.items.length + span.length > collected.body.capacity
    · have beyond : ¬ collected.body.items.length + (span :: spans).flatten.length ≤ collected.body.capacity := by
        rw [List.flatten_cons, List.length_append]
        omega
      rw [if_pos full, if_neg beyond]
      rfl
    · have later := @ih { collected with body := { collected.body with items := collected.body.items ++ span } } room
        (by simp only [List.length_append]; omega)
      rw [if_neg full, Option.map_some, Option.bind_some, later]
      simp only [List.length_append, List.flatten_cons, List.append_assoc, Nat.add_assoc]

theorem makeRoom_fresh (headers : StringHashMap (List Byte)) (length : Nat) (positive : 0 < length) :
    (∃ room, makeRoom headers {} = some room ∧ room.items = [] ∧ length ≤ room.capacity) ↔
      ∃ cl clInt, headers.get (text "content-length") = some cl ∧ fmt.parseInt (2 ^ 32) cl = some clInt ∧
        clInt ≤ maxBodyLen ∧ length ≤ (({} : ArrayList Byte).ensureTotalCapacity clInt).capacity := by
  have empty : ({} : ArrayList Byte).capacity = 0 := rfl
  rw [makeRoom, if_pos empty]
  cases headers.get (text "content-length") with
  | none =>
    simp
    omega
  | some cl =>
    simp only [Option.some.injEq, exists_and_left, exists_eq_left']
    generalize fmt.parseInt (2 ^ 32) cl = parsed
    cases parsed with
    | none => simp
    | some clInt =>
      by_cases long : clInt > maxBodyLen
      · have beyond : ¬ clInt ≤ maxBodyLen := by omega
        simp [if_pos long, beyond]
      · have below : clInt ≤ maxBodyLen := by omega
        simp [if_neg long, below]

theorem takeAll_body {collected : Collected} (fresh : collected.body = {}) {spans : List (List Byte)}
    (nonempty : ∀ span ∈ spans, span ≠ []) :
    (BodyAccepted collected.headers spans.flatten ∧
        ∃ body, collected.takeAll (spans.map .body) = some { collected with body } ∧ body.items = spans.flatten) ∨
      (¬ BodyAccepted collected.headers spans.flatten ∧ collected.takeAll (spans.map .body) = none) := by
  cases spans with
  | nil =>
    refine .inl ⟨.inl rfl, {}, ?_, rfl⟩
    simp [Collected.takeAll, ← fresh]
  | cons span spans =>
    have positive : 0 < (span :: spans).flatten.length := by
      have := List.length_pos_of_ne_nil (nonempty span (by simp))
      rw [List.flatten_cons, List.length_append]
      omega
    have content : (span :: spans).flatten ≠ [] := List.ne_nil_of_length_pos positive
    have accepted : BodyAccepted collected.headers (span :: spans).flatten ↔
        ∃ room, makeRoom collected.headers {} = some room ∧ room.items = [] ∧
          (span :: spans).flatten.length ≤ room.capacity := by
      rw [makeRoom_fresh collected.headers _ positive]
      exact or_iff_right content
    rw [accepted]
    cases made : makeRoom collected.headers {} with
    | none =>
      refine .inr ⟨by simp, ?_⟩
      simp [Collected.takeAll, Collected.take, takeBody, fresh, made]
    | some room =>
      have empty : room.items = [] := makeRoom_items made
      by_cases capacity : room.capacity = 0
      · have full : span ≠ [] := nonempty span (by simp)
        refine .inr ⟨?_, ?_⟩
        · rintro ⟨_, ⟨⟩, -, within⟩
          omega
        · simp [Collected.takeAll, Collected.take, takeBody, fresh, made, empty, capacity, full]
      · have all := @takeAll_room _ { collected with body := room } capacity (by simp [empty]) (span :: spans)
        have first : collected.takeAll ((span :: spans).map .body) =
            Collected.takeAll { collected with body := room } ((span :: spans).map .body) := by
          simp [Collected.takeAll, Collected.take, takeBody, fresh, made, makeRoom_of_room capacity]
        rw [first, all]
        simp only [empty, List.length_nil, Nat.zero_add, List.nil_append]
        by_cases fits : (span :: spans).flatten.length ≤ room.capacity
        · rw [if_pos fits]
          exact .inl ⟨⟨room, rfl, empty, fits⟩, _, rfl, rfl⟩
        · rw [if_neg fits]
          refine .inr ⟨?_, rfl⟩
          rintro ⟨_, ⟨⟩, -, within⟩
          exact fits within

structure Adds (collected : Collected) (content : RequestContent) (after : Collected) : Prop where
  url : after.url = collected.url ++ content.url
  headers : after.headers = storeHeaders collected.headers content.headers
  body : after.body.items = content.body
  done : after.done = true

/-- What a handler is to learn about a request. -/
def RequestContent.view (content : RequestContent) : RequestView where
  url := some content.url
  headers := storeHeaders {} content.headers
  body := content.body

omit [GrowthPolicy] in
theorem Adds.view {content : RequestContent} {after : Collected} (adds : Adds {} content after) :
    after.view = RequestContent.view content := by
  simp [Collected.view, RequestContent.view, adds.url, adds.headers, adds.body, adds.done]

theorem takeAll_head {collected : Collected} (settled : collected.Settled) (fresh : collected.body = {})
    (reported : ReportedRequest) :
    (BodyAccepted (storeHeaders collected.headers reported.meaning.headers) reported.meaning.body ∧
        ∃ body, collected.takeAll reported.head = some { collected with
          url := collected.url ++ reported.meaning.url
          headers := storeHeaders collected.headers reported.meaning.headers
          body } ∧ body.items = reported.meaning.body) ∨
      (¬ BodyAccepted (storeHeaders collected.headers reported.meaning.headers) reported.meaning.body ∧
        collected.takeAll reported.head = none) := by
  obtain ⟨url, field, value, headers, body, done⟩ := collected
  obtain ⟨rfl, rfl⟩ := settled
  cases fresh
  let stored : Collected :=
    { url := url ++ reported.target.flatten, headers := storeHeaders headers reported.meaning.headers, done }
  have opening : Collected.takeAll { url, headers, done }
      (reported.target.map .url ++ reported.headers.flatMap ReportedHeader.calls) = some stored := by
    rw [Collected.takeAll_append, Collected.takeAll_url, Option.bind_some, takeAll_headers ⟨rfl, rfl⟩]
    rfl
  have whole : Collected.takeAll { url, headers, done } reported.head =
      stored.takeAll (reported.content.map .body) := by
    rw [ReportedRequest.head, Collected.takeAll_append, opening, Option.bind_some]
    rfl
  rw [whole]
  rcases @takeAll_body _ stored rfl reported.content reported.nonempty with ⟨accepted, body, taken, items⟩ | ⟨refused, none⟩
  · exact .inl ⟨accepted, body, taken, items⟩
  · exact .inr ⟨refused, none⟩

theorem takeAll_trailed {collected : Collected} (settled : collected.Settled) (fresh : collected.body = {})
    (reported : ReportedRequest) (trailers : List ReportedHeader) :
    (BodyAccepted (storeHeaders collected.headers reported.meaning.headers) reported.meaning.body ∧
        ∃ after, collected.takeAll (reported.trailed trailers) = some after ∧
          Adds collected { reported.meaning with headers := reported.fields trailers } after) ∨
      (¬ BodyAccepted (storeHeaders collected.headers reported.meaning.headers) reported.meaning.body ∧
        collected.takeAll (reported.trailed trailers) = none) := by
  rw [ReportedRequest.trailed, List.append_assoc, Collected.takeAll_append]
  rcases takeAll_head settled fresh reported with ⟨accepted, body, taken, items⟩ | ⟨refused, none⟩
  · let headed : Collected := { collected with
      url := collected.url ++ reported.meaning.url
      headers := storeHeaders collected.headers reported.meaning.headers
      body }
    have still : headed.Settled := ⟨settled.field, settled.value⟩
    rw [taken, Option.bind_some, Collected.takeAll_append, takeAll_headers still, Option.bind_some]
    refine .inl ⟨accepted, _, rfl, { url := rfl, headers := ?_, body := items, done := rfl }⟩
    simp only [headed, storeHeaders, ReportedRequest.fields, ReportedRequest.meaning, List.map_append,
      List.foldl_append]
  · rw [none]
    exact .inr ⟨refused, rfl⟩

theorem takeAll_reported {collected : Collected} (settled : collected.Settled) (fresh : collected.body = {})
    (reported : ReportedRequest) :
    (BodyAccepted (storeHeaders collected.headers reported.meaning.headers) reported.meaning.body ∧
        ∃ after, collected.takeAll reported.calls = some after ∧ Adds collected reported.meaning after) ∨
      (¬ BodyAccepted (storeHeaders collected.headers reported.meaning.headers) reported.meaning.body ∧
        collected.takeAll reported.calls = none) := by
  have untrailed := takeAll_trailed settled fresh reported []
  simp only [ReportedRequest.trailed, ReportedRequest.fields, List.flatMap_nil, List.append_nil] at untrailed
  exact untrailed

/-- Bytes of the URL pile up, whatever else is reported, and a complete message stays complete. -/
theorem takeAll_url_done {collected after : Collected} {calls : List Callback}
    (taken : collected.takeAll calls = some after) :
    after.url = collected.url ++ urlBytes calls ∧
      after.done = (collected.done || decide (.messageComplete ∈ calls)) := by
  induction calls generalizing collected with
  | nil =>
    cases taken
    simp [urlBytes]
  | cons call calls ih =>
    obtain ⟨middle, first, others⟩ := Option.bind_eq_some_iff.mp taken
    obtain ⟨url, done⟩ := ih others
    rw [url, done]
    cases call with
    | body span =>
      obtain ⟨body, -, rfl⟩ := Option.map_eq_some_iff.mp first
      simp [urlBytes]
    | url | headerField | headerValue | headerFieldComplete | headersComplete | headerValueComplete
    | messageComplete =>
      cases first
      simp [urlBytes]

theorem takeAll_init (reported : ReportedRequest) :
    (BodyAccepted (storeHeaders {} reported.meaning.headers) reported.meaning.body ∧
        ∃ after, Collected.takeAll {} reported.calls = some after ∧ Adds {} reported.meaning after) ∨
      (¬ BodyAccepted (storeHeaders {} reported.meaning.headers) reported.meaning.body ∧
        Collected.takeAll {} reported.calls = none) :=
  @takeAll_reported _ {} ⟨rfl, rfl⟩ rfl reported

/-- Nothing is reset between two requests: the second comes with the URL of the first in front of its own. -/
theorem second_url {first second : ReportedRequest} {middle after : Collected}
    (before : Collected.takeAll {} first.calls = some middle) (taken : middle.takeAll second.calls = some after) :
    after.url = first.meaning.url ++ second.meaning.url := by
  rw [(takeAll_url_done taken).1, (takeAll_url_done before).1, urlBytes_reported, urlBytes_reported]
  rfl

end Abstract

section Refinement

variable {T : Type} [Llhttp]

/-- The request holds what was collected, and its allocator refuses nothing. -/
structure Holds (request : HttpRequestCtx T) (collected : Collected) : Prop where
  url : request.headersState.accUrl.items = collected.url
  field : request.headersState.accField.items = collected.field
  value : request.headersState.accValue.items = collected.value
  headers : request.headers = collected.headers
  body : request.headersState.accBody = collected.body
  done : request.done = collected.done
  allocator : request.allocator = {}

structure SameConnection (request next : HttpRequestCtx T) : Prop where
  state : next.state = request.state
  responded : next.responded = request.responded
  websocketState : next.websocketState = request.websocketState
  userCtx : next.userCtx = request.userCtx

theorem SameConnection.refl (request : HttpRequestCtx T) : SameConnection request request :=
  { state := rfl, responded := rfl, websocketState := rfl, userCtx := rfl }

theorem SameConnection.trans {first second third : HttpRequestCtx T} (left : SameConnection first second)
    (right : SameConnection second third) : SameConnection first third :=
  { state := right.state.trans left.state, responded := right.responded.trans left.responded,
    websocketState := right.websocketState.trans left.websocketState, userCtx := right.userCtx.trans left.userCtx }

theorem holds_view {request : HttpRequestCtx T} {collected : Collected} (holds : Holds request collected) :
    request.view = collected.view := by
  simp only [HttpRequestCtx.view, HttpRequestCtx.getURL, HttpRequestCtx.getBody, Collected.view, holds.url,
    holds.headers, holds.body, holds.done]

theorem holds_init : Holds ({} : HttpRequestCtx T) {} :=
  { url := rfl, field := rfl, value := rfl, headers := rfl, body := rfl, done := rfl, allocator := rfl }

theorem appendBody_fits {request : HttpRequestCtx T} {span : List Byte}
    (fits : ¬ request.headersState.accBody.items.length + span.length > request.headersState.accBody.capacity) :
    request.appendBody span =
      ({ request with headersState := { request.headersState with
          accBody := { request.headersState.accBody with items := request.headersState.accBody.items ++ span } } }, 0) := by
  rw [HttpRequestCtx.appendBody]
  simp only [if_neg fits]

theorem appendBody_refuses {request : HttpRequestCtx T} {span : List Byte}
    (full : request.headersState.accBody.items.length + span.length > request.headersState.accBody.capacity) :
    request.appendBody span = (request, -1) := by
  rw [HttpRequestCtx.appendBody]
  simp only [if_pos full]

theorem appendBody_cases (request : HttpRequestCtx T) (span : List Byte) :
    ∃ accBody code, request.appendBody span =
      ({ request with headersState := { request.headersState with accBody } }, code) := by
  unfold HttpRequestCtx.appendBody
  dsimp only
  split
  · exact ⟨request.headersState.accBody, -1, rfl⟩
  · exact ⟨_, 0, rfl⟩

theorem httpOnHeaderValueComplete_connection (request : HttpRequestCtx T) :
    SameConnection request request.httpOnHeaderValueComplete.1 := by
  unfold HttpRequestCtx.httpOnHeaderValueComplete
  dsimp only
  split
  · exact ⟨rfl, rfl, rfl, rfl⟩
  · split
    · exact ⟨rfl, rfl, rfl, rfl⟩
    · split <;> exact ⟨rfl, rfl, rfl, rfl⟩

variable [GrowthPolicy]

theorem httpOnParseHeaderData_granting {request : HttpRequestCtx T} (granting : request.allocator = {})
    (field : HeaderData) (span : List Byte) :
    ∃ list : ArrayList Byte, list.items = (request.headersState.list field).items ++ span ∧
      request.httpOnParseHeaderData field span =
        ({ request with allocator := {}, headersState := request.headersState.setList list field }, 0) := by
  simp only [HttpRequestCtx.httpOnParseHeaderData, granting, ArrayList.reserve_granting]
  refine ⟨_, ?_, rfl⟩
  simp

theorem httpOnBody_makeRoom {request : HttpRequestCtx T} (granting : request.allocator = {}) (span : List Byte) :
    request.httpOnBody span =
      match makeRoom request.headers request.headersState.accBody with
      | none => (request, -1)
      | some accBody =>
        { request with headersState := { request.headersState with accBody } }.appendBody span := by
  unfold HttpRequestCtx.httpOnBody makeRoom
  split
  · cases request.headers.get (text "content-length") with
    | none => rfl
    | some cl =>
      cases parsed : fmt.parseInt (2 ^ 32) cl with
      | none => simp only [parsed]
      | some clInt =>
        simp only [parsed]
        split
        · rfl
        · rw [granting, ArrayList.reserve_granting]
  · rfl

theorem httpOnBody_some {request : HttpRequestCtx T} (granting : request.allocator = {}) {span : List Byte}
    {accBody : ArrayList Byte} (taken : takeBody request.headers request.headersState.accBody span = some accBody) :
    request.httpOnBody span = ({ request with headersState := { request.headersState with accBody } }, 0) := by
  rw [httpOnBody_makeRoom granting]
  obtain ⟨room, made, fitted⟩ := Option.bind_eq_some_iff.mp taken
  split at fitted
  · cases fitted
  · rename_i fits
    cases fitted
    simp only [made]
    exact appendBody_fits fits

theorem httpOnBody_none {request : HttpRequestCtx T} (granting : request.allocator = {}) {span : List Byte}
    (refused : takeBody request.headers request.headersState.accBody span = none) :
    (request.httpOnBody span).2 ≠ 0 ∧ (request.httpOnBody span).1.getBody = request.getBody := by
  rw [httpOnBody_makeRoom granting]
  unfold takeBody at refused
  cases made : makeRoom request.headers request.headersState.accBody with
  | none => exact ⟨by simp, rfl⟩
  | some room =>
    rw [made, Option.bind_some] at refused
    split at refused
    · rename_i full
      have rejected : { request with headersState := { request.headersState with accBody := room } }.appendBody span =
        (_, -1) := appendBody_refuses full
      simp only [rejected]
      exact ⟨by simp, makeRoom_items made⟩
    · cases refused

/-- A span callback changes one list, which is longer by the span when it returns zero. -/
theorem httpOnParseHeaderData_cases (request : HttpRequestCtx T) (field : HeaderData) (span : List Byte) :
    ∃ allocator list code, request.httpOnParseHeaderData field span =
        ({ request with allocator, headersState := request.headersState.setList list field }, code) ∧
      (code = 0 → list.items = (request.headersState.list field).items ++ span) := by
  have same : request.headersState.setList (request.headersState.list field) field = request.headersState := by
    cases field <;> rfl
  unfold HttpRequestCtx.httpOnParseHeaderData
  rcases first : (request.headersState.list field).reserve request.allocator 32 with ⟨reserved, allocator⟩
  cases reserved with
  | none =>
    refine ⟨allocator, request.headersState.list field, -1, ?_, by simp⟩
    rw [same]
  | some list =>
    rcases second : list.reserve allocator (list.items.length + span.length) with ⟨roomy, granted⟩
    simp only [second]
    cases roomy with
    | none => exact ⟨granted, list, -1, rfl, by simp⟩
    | some roomy =>
      refine ⟨granted, roomy.appendSlice span, 0, rfl, fun _ => ?_⟩
      rw [ArrayList.appendSlice_items, ArrayList.reserve_items second, ArrayList.reserve_items first]

theorem httpOnBody_cases (request : HttpRequestCtx T) (span : List Byte) :
    ∃ allocator accBody code, request.httpOnBody span =
      ({ request with allocator, headersState := { request.headersState with accBody } }, code) := by
  obtain ⟨accBody, code, appended⟩ := appendBody_cases request span
  unfold HttpRequestCtx.httpOnBody
  split
  · split
    · exact ⟨request.allocator, accBody, code, appended⟩
    · split
      · exact ⟨request.allocator, request.headersState.accBody, -1, rfl⟩
      · split
        · exact ⟨request.allocator, request.headersState.accBody, -1, rfl⟩
        · split
          · exact ⟨_, request.headersState.accBody, -1, rfl⟩
          · rename_i room allocator reserved
            obtain ⟨accBody, code, appended⟩ := appendBody_cases { request with allocator, headersState :=
              { request.headersState with accBody := room } } span
            exact ⟨allocator, accBody, code, appended⟩
  · exact ⟨request.allocator, accBody, code, appended⟩

theorem httpOnParseHeaderData_connection (request : HttpRequestCtx T) (field : HeaderData) (span : List Byte) :
    SameConnection request (request.httpOnParseHeaderData field span).1 := by
  obtain ⟨allocator, list, code, result, -⟩ := httpOnParseHeaderData_cases request field span
  rw [result]
  exact ⟨rfl, rfl, rfl, rfl⟩

theorem httpOnBody_connection (request : HttpRequestCtx T) (span : List Byte) :
    SameConnection request (request.httpOnBody span).1 := by
  obtain ⟨allocator, accBody, code, result⟩ := httpOnBody_cases request span
  rw [result]
  exact ⟨rfl, rfl, rfl, rfl⟩

theorem callback_connection (request : HttpRequestCtx T) (call : Callback) :
    SameConnection request (request.callback call).1 := by
  cases call with
  | url span => exact httpOnParseHeaderData_connection request .accUrl span
  | headerField span => exact httpOnParseHeaderData_connection request .accField span
  | headerValue span => exact httpOnParseHeaderData_connection request .accValue span
  | headerFieldComplete | headersComplete => exact .refl request
  | headerValueComplete => exact httpOnHeaderValueComplete_connection request
  | body span => exact httpOnBody_connection request span
  | messageComplete => exact ⟨rfl, rfl, rfl, rfl⟩

theorem callbacks_connection (request : HttpRequestCtx T) (calls : List Callback) :
    SameConnection request (request.callbacks calls).1 := by
  induction calls generalizing request with
  | nil => exact .refl request
  | cons call calls ih =>
    have first := callback_connection request call
    rw [HttpRequestCtx.callbacks]
    split
    rename_i next code called
    rw [called] at first
    split
    · exact first.trans (ih next)
    · exact first

theorem callback_some {request : HttpRequestCtx T} {collected after : Collected} (holds : Holds request collected)
    {call : Callback} (taken : collected.take call = some after) :
    ∃ next, request.callback call = (next, 0) ∧ Holds next after := by
  cases call with
  | url span =>
    cases taken
    obtain ⟨list, items, called⟩ := httpOnParseHeaderData_granting holds.allocator .accUrl span
    refine ⟨_, called, ?_⟩
    exact { url := items.trans (congrArg (· ++ span) holds.url), field := holds.field, value := holds.value,
            headers := holds.headers, body := holds.body, done := holds.done, allocator := rfl }
  | headerField span =>
    cases taken
    obtain ⟨list, items, called⟩ := httpOnParseHeaderData_granting holds.allocator .accField span
    refine ⟨_, called, ?_⟩
    exact { url := holds.url, field := items.trans (congrArg (· ++ span) holds.field), value := holds.value,
            headers := holds.headers, body := holds.body, done := holds.done, allocator := rfl }
  | headerValue span =>
    cases taken
    obtain ⟨list, items, called⟩ := httpOnParseHeaderData_granting holds.allocator .accValue span
    refine ⟨_, called, ?_⟩
    exact { url := holds.url, field := holds.field, value := items.trans (congrArg (· ++ span) holds.value),
            headers := holds.headers, body := holds.body, done := holds.done, allocator := rfl }
  | headerFieldComplete =>
    cases taken
    exact ⟨request, rfl, holds⟩
  | headersComplete =>
    cases taken
    exact ⟨request, rfl, holds⟩
  | headerValueComplete =>
    cases taken
    simp only [HttpRequestCtx.callback, HttpRequestCtx.httpOnHeaderValueComplete, holds.allocator,
      Allocator.allocate_granting]
    refine ⟨_, rfl, ?_⟩
    exact { url := holds.url, field := rfl, value := rfl, headers := by rw [holds.headers, holds.field, holds.value],
            body := holds.body, done := holds.done, allocator := rfl }
  | body span =>
    obtain ⟨accBody, room, rfl⟩ := Option.map_eq_some_iff.mp taken
    rw [← holds.headers, ← holds.body] at room
    refine ⟨_, httpOnBody_some holds.allocator room, ?_⟩
    exact { url := holds.url, field := holds.field, value := holds.value, headers := holds.headers, body := rfl,
            done := holds.done, allocator := holds.allocator }
  | messageComplete =>
    cases taken
    refine ⟨_, rfl, ?_⟩
    exact { url := holds.url, field := holds.field, value := holds.value, headers := holds.headers,
            body := holds.body, done := rfl, allocator := holds.allocator }

theorem callback_none {request : HttpRequestCtx T} {collected : Collected} (holds : Holds request collected)
    {call : Callback} (refused : collected.take call = none) : (request.callback call).2 ≠ 0 := by
  cases call with
  | body span =>
    have room : takeBody collected.headers collected.body span = none := Option.map_eq_none_iff.mp refused
    rw [← holds.headers, ← holds.body] at room
    exact (httpOnBody_none holds.allocator room).1
  | url | headerField | headerValue | headerFieldComplete | headersComplete | headerValueComplete
  | messageComplete => cases refused

theorem callbacks_some {request : HttpRequestCtx T} {collected after : Collected} (holds : Holds request collected)
    {calls : List Callback} (taken : collected.takeAll calls = some after) :
    ∃ next, request.callbacks calls = (next, 0) ∧ Holds next after := by
  induction calls generalizing request collected with
  | nil =>
    cases taken
    exact ⟨request, rfl, holds⟩
  | cons call calls ih =>
    obtain ⟨middle, first, others⟩ := Option.bind_eq_some_iff.mp taken
    obtain ⟨next, called, held⟩ := callback_some holds first
    obtain ⟨last, rest, heldLast⟩ := ih held others
    refine ⟨last, ?_, heldLast⟩
    simp only [HttpRequestCtx.callbacks, called, ite_true, rest]

theorem callbacks_none {request : HttpRequestCtx T} {collected : Collected} (holds : Holds request collected)
    {calls : List Callback} (refused : collected.takeAll calls = none) : (request.callbacks calls).2 ≠ 0 := by
  induction calls generalizing request collected with
  | nil => cases refused
  | cons call calls ih =>
    cases first : collected.take call with
    | none =>
      have failed := callback_none holds first
      simp only [HttpRequestCtx.callbacks, if_neg failed]
      exact failed
    | some middle =>
      obtain ⟨next, called, held⟩ := callback_some holds first
      rw [Collected.takeAll, first, Option.bind_some] at refused
      simp only [HttpRequestCtx.callbacks, called, ite_true]
      exact ih held refused

end Refinement

end ZapeProof
