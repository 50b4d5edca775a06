import Zape.Http.Collecting
import Zape.Http.Script

/-! What `http_on_header_value_complete` stores when memory may be short. -/
namespace ZapeProof

open Machine Zig ZapeModel

section Spans

/-- The name and the value of the header that is being reported. -/
def addSpan (own : List Byte × List Byte) : Callback → List Byte × List Byte
  | .headerField span => (own.1 ++ span, own.2)
  | .headerValue span => (own.1, own.2 ++ span)
  | _ => own

def ownFields (own : List Byte × List Byte) : List Callback → List (List Byte × List Byte)
  | [] => []
  | call :: calls =>
    if call = .headerValueComplete then own :: ownFields ([], []) calls else ownFields (addSpan own call) calls

theorem ownFields_spans {calls : List Callback} (plain : .headerValueComplete ∉ calls) (own : List Byte × List Byte)
    (rest : List Callback) : ownFields own (calls ++ rest) = ownFields (calls.foldl addSpan own) rest := by
  induction calls generalizing own with
  | nil => rfl
  | cons call calls ih =>
    have other : call ≠ .headerValueComplete := by
      rintro rfl
      exact plain List.mem_cons_self
    rw [List.cons_append, ownFields, if_neg other, ih fun member => plain (List.mem_cons_of_mem _ member)]
    rfl

theorem foldl_addSpan_field (own : List Byte × List Byte) (spans : List (List Byte)) :
    (spans.map Callback.headerField).foldl addSpan own = (own.1 ++ spans.flatten, own.2) := by
  induction spans generalizing own with
  | nil => simp
  | cons span spans ih => simp [ih, addSpan]

theorem foldl_addSpan_value (own : List Byte × List Byte) (spans : List (List Byte)) :
    (spans.map Callback.headerValue).foldl addSpan own = (own.1, own.2 ++ spans.flatten) := by
  induction spans generalizing own with
  | nil => simp
  | cons span spans ih => simp [ih, addSpan]

theorem ownFields_headers (headers : List ReportedHeader) (rest : List Callback) :
    ownFields ([], []) (headers.flatMap ReportedHeader.calls ++ rest) =
      headers.map (fun header => (header.field.flatten, header.value.flatten)) ++ ownFields ([], []) rest := by
  induction headers with
  | nil => rfl
  | cons header headers ih =>
    have named : .headerValueComplete ∉ header.field.map Callback.headerField := by simp
    have valued : .headerValueComplete ∉ header.value.map Callback.headerValue := by simp
    simp only [List.flatMap_cons, ReportedHeader.calls, List.append_assoc, List.cons_append, List.nil_append,
      List.map_cons]
    rw [ownFields_spans named, foldl_addSpan_field, ownFields, if_neg (by decide), ownFields_spans valued,
      foldl_addSpan_value, ownFields, if_pos rfl, ih]
    rfl

theorem foldl_addSpan_apart {calls : List Callback} (own : List Byte × List Byte)
    (apart : ∀ call ∈ calls, addSpan own call = own) : calls.foldl addSpan own = own := by
  induction calls with
  | nil => rfl
  | cons call calls ih =>
    rw [List.foldl_cons, apart call List.mem_cons_self]
    exact ih fun other member => apart other (List.mem_cons_of_mem _ member)

theorem ownFields_trailed (reported : ReportedRequest) (trailers : List ReportedHeader) :
    ownFields ([], []) (reported.trailed trailers) = reported.fields trailers := by
  have target : (reported.target.map Callback.url).foldl addSpan ([], []) = ([], []) :=
    foldl_addSpan_apart _ (by simp [addSpan])
  have content : (reported.content.map Callback.body).foldl addSpan ([], []) = ([], []) :=
    foldl_addSpan_apart _ (by simp [addSpan])
  have ending : ownFields ([], []) [.messageComplete] = [] := by decide
  simp only [ReportedRequest.trailed, ReportedRequest.head, List.append_assoc, List.cons_append]
  rw [ownFields_spans (by simp), target, ownFields_headers, ownFields, if_neg (by decide),
    show addSpan ([], []) .headersComplete = ([], []) from rfl, ownFields_spans (by simp), content, ownFields_headers,
    ending, List.append_nil, ReportedRequest.fields, List.map_append]

end Spans

section Completions

variable {T : Type} [Llhttp]

/-- Whether memory lasts for a header in `http_on_header_value_complete`. -/
def lasts (request : HttpRequestCtx T) : Bool :=
  let key := request.allocator.allocate request.headersState.accField.items.length
  let value := key.2.allocate request.headersState.accValue.items.length
  key.1 && value.1 && (value.2.allocate 1).1

def accumulated (request : HttpRequestCtx T) : List Byte × List Byte :=
  (request.headersState.accField.items, request.headersState.accValue.items)

/-- A call of `http_on_header_value_complete`: what it is to store, and whether memory lasts for that. -/
structure Completion where
  lasted : Bool
  name : List Byte
  value : List Byte

def completion (request : HttpRequestCtx T) : Completion where
  lasted := lasts request
  name := ascii.lowerString (accumulated request).1
  value := (accumulated request).2

theorem headerValueComplete_result (request : HttpRequestCtx T) :
    request.httpOnHeaderValueComplete.2 = 0 ∧
      request.httpOnHeaderValueComplete.1.headers =
        (if lasts request then request.headers.put (completion request).name (completion request).value
          else request.headers) ∧
      accumulated request.httpOnHeaderValueComplete.1 =
        if lasts request then ([], []) else accumulated request := by
  rcases keyed : request.allocator.allocate request.headersState.accField.items.length with ⟨key, first⟩
  rcases valued : first.allocate request.headersState.accValue.items.length with ⟨value, second⟩
  rcases stored : second.allocate 1 with ⟨put, third⟩
  cases key with
  | false => simp [HttpRequestCtx.httpOnHeaderValueComplete, lasts, accumulated, keyed]
  | true =>
    cases value with
    | false => simp [HttpRequestCtx.httpOnHeaderValueComplete, lasts, accumulated, keyed, valued]
    | true =>
      cases put <;>
        simp [HttpRequestCtx.httpOnHeaderValueComplete, lasts, accumulated, completion, keyed, valued, stored]

variable [GrowthPolicy]

def completions (request : HttpRequestCtx T) : List Callback → List Completion
  | [] => []
  | call :: calls =>
    (if call = .headerValueComplete then [completion request] else []) ++
      match request.callback call with
      | (request, code) => if code = 0 then completions request calls else []

theorem parseHeaderData_headers (request : HttpRequestCtx T) (field : HeaderData) (span : List Byte) :
    (request.httpOnParseHeaderData field span).1.headers = request.headers := by
  obtain ⟨allocator, list, code, result, -⟩ := httpOnParseHeaderData_cases request field span
  rw [result]

/-- A span that is taken is put behind what its list holds, and the other lists stay. -/
theorem parseHeaderData_taken {request : HttpRequestCtx T} {field : HeaderData} {span : List Byte}
    (taken : (request.httpOnParseHeaderData field span).2 = 0) :
    ∃ list : ArrayList Byte, list.items = (request.headersState.list field).items ++ span ∧
      (request.httpOnParseHeaderData field span).1.headersState = request.headersState.setList list field := by
  obtain ⟨allocator, list, code, result, items⟩ := httpOnParseHeaderData_cases request field span
  rw [result] at taken ⊢
  exact ⟨list, items taken, rfl⟩

theorem httpOnBody_apart (request : HttpRequestCtx T) (span : List Byte) :
    (request.httpOnBody span).1.headers = request.headers ∧
      accumulated (request.httpOnBody span).1 = accumulated request := by
  obtain ⟨allocator, accBody, code, result⟩ := httpOnBody_cases request span
  rw [result]
  exact ⟨rfl, rfl⟩

theorem callback_headers (request : HttpRequestCtx T) {call : Callback} (other : call ≠ .headerValueComplete) :
    (request.callback call).1.headers = request.headers := by
  cases call with
  | url span => exact parseHeaderData_headers request .accUrl span
  | headerField span => exact parseHeaderData_headers request .accField span
  | headerValue span => exact parseHeaderData_headers request .accValue span
  | headerFieldComplete | headersComplete | messageComplete => rfl
  | headerValueComplete => exact absurd rfl other
  | body span => exact (httpOnBody_apart request span).1

theorem callback_accumulated {request : HttpRequestCtx T} {call : Callback} (other : call ≠ .headerValueComplete)
    (taken : (request.callback call).2 = 0) :
    accumulated (request.callback call).1 = addSpan (accumulated request) call := by
  cases call with
  | url span =>
    obtain ⟨list, -, state⟩ := @parseHeaderData_taken _ _ _ request .accUrl span taken
    show accumulated (request.httpOnParseHeaderData .accUrl span).1 = accumulated request
    simp only [accumulated, state, HeadersState.setList]
  | headerField span =>
    obtain ⟨list, items, state⟩ := @parseHeaderData_taken _ _ _ request .accField span taken
    show accumulated (request.httpOnParseHeaderData .accField span).1 = _
    simp only [accumulated, addSpan, state, HeadersState.setList, items, HeadersState.list]
  | headerValue span =>
    obtain ⟨list, items, state⟩ := @parseHeaderData_taken _ _ _ request .accValue span taken
    show accumulated (request.httpOnParseHeaderData .accValue span).1 = _
    simp only [accumulated, addSpan, state, HeadersState.setList, items, HeadersState.list]
  | headerFieldComplete | headersComplete | messageComplete => rfl
  | headerValueComplete => exact absurd rfl other
  | body span => exact (httpOnBody_apart request span).2

end Completions

section Glue

variable {T : Type} [Llhttp] [GrowthPolicy]

/-- What earlier headers have left in the lists, with what the present one has brought. -/
def glue (left own : List Byte × List Byte) : List Byte × List Byte := (left.1 ++ own.1, left.2 ++ own.2)

omit [Llhttp] [GrowthPolicy] in
theorem glue_addSpan (left own : List Byte × List Byte) (call : Callback) :
    addSpan (glue left own) call = glue left (addSpan own call) := by
  cases call <;> simp [addSpan, glue]

/-- Each header next to what `http_on_header_value_complete` does for it. -/
def stores (request : HttpRequestCtx T) (own : List Byte × List Byte) (calls : List Callback) :
    List (Completion × (List Byte × List Byte)) :=
  (completions request calls).zip (ownFields own calls)

def StoresOwn (entry : Completion × (List Byte × List Byte)) : Prop :=
  entry.1.lasted = true → entry.1.name = ascii.lowerString entry.2.1 ∧ entry.1.value = entry.2.2

variable {request : HttpRequestCtx T} {left own : List Byte × List Byte}

theorem stores_complete (calls : List Callback) :
    stores request own (.headerValueComplete :: calls) =
      (completion request, own) :: stores request.httpOnHeaderValueComplete.1 ([], []) calls := by
  have called := (headerValueComplete_result request).1
  simp only [stores, completions, HttpRequestCtx.callback, called, ite_true, ownFields]
  rfl

theorem stores_other {call : Callback} (other : call ≠ .headerValueComplete) (calls : List Callback) :
    stores request own (call :: calls) =
      if (request.callback call).2 = 0 then stores (request.callback call).1 (addSpan own call) calls else [] := by
  simp only [stores, completions, if_neg other, ownFields, List.nil_append]
  split <;> rfl

omit [GrowthPolicy] in
theorem nothing_left (glued : accumulated request = glue left own) (lasted : lasts request = true)
    (right : StoresOwn (completion request, own)) : left = ([], []) := by
  obtain ⟨name, value⟩ := right lasted
  simp only [completion, glued, glue, ascii.lowerString, List.map_append] at name value
  have field := List.map_eq_nil_iff.mp (List.append_left_eq_self.mp name)
  have rest := List.append_left_eq_self.mp value
  exact Prod.ext field rest

/-- With something left of an earlier header, only a header that is not stored either keeps its own. -/
theorem glued_stores (remains : left ≠ ([], [])) (glued : accumulated request = glue left own) (calls : List Callback)
    (right : ∀ entry ∈ stores request own calls, StoresOwn entry) :
    ∀ entry ∈ stores request own calls, entry.1.lasted = false := by
  induction calls generalizing request left own with
  | nil => simp [stores, completions]
  | cons call calls ih =>
    by_cases complete : call = .headerValueComplete
    · subst complete
      rw [stores_complete] at right ⊢
      have short : lasts request = false := by
        by_contra lasted
        exact remains (nothing_left glued (by simpa using lasted) (right _ List.mem_cons_self))
      have after := (headerValueComplete_result request).2.2
      rw [short, if_neg (by decide), glued] at after
      have still : glue left own ≠ ([], []) := by
        intro empty
        simp only [glue, Prod.mk.injEq, List.append_eq_nil_iff] at empty
        exact remains (Prod.ext empty.1.1 empty.2.1)
      have later : accumulated request.httpOnHeaderValueComplete.1 = glue (glue left own) ([], []) := by
        rw [after]
        simp [glue]
      intro entry member
      rcases List.mem_cons.mp member with rfl | member
      · exact short
      · exact ih still later (fun entry member => right entry (List.mem_cons_of_mem _ member)) entry member
    · rw [stores_other complete] at right ⊢
      split
      · rename_i taken
        rw [if_pos taken] at right
        have later : accumulated (request.callback call).1 = glue left (addSpan own call) := by
          rw [callback_accumulated complete taken, glued, glue_addSpan]
        exact ih remains later right
      · simp

/-- Nothing is stored for a header after one that was not stored and had something to leave. -/
def Unmixed (entries : List (Completion × (List Byte × List Byte))) : Prop :=
  entries.Pairwise fun earlier later => later.1.lasted = true → earlier.1.lasted = true ∨ earlier.2 = ([], [])

theorem stores_own_iff (empty : accumulated request = own) (calls : List Callback) :
    (∀ entry ∈ stores request own calls, StoresOwn entry) ↔ Unmixed (stores request own calls) := by
  induction calls generalizing request own with
  | nil => simp [stores, completions, Unmixed]
  | cons call calls ih =>
    by_cases complete : call = .headerValueComplete
    · subst complete
      have after := (headerValueComplete_result request).2.2
      rw [stores_complete, List.forall_mem_cons, Unmixed, List.pairwise_cons]
      by_cases lasted : lasts request = true
      · have fresh : accumulated request.httpOnHeaderValueComplete.1 = ([], []) := by rw [after, if_pos lasted]
        have here : StoresOwn (completion request, own) := by
          intro _
          simp [completion, empty]
        rw [ih fresh]
        constructor
        · rintro ⟨-, unmixed⟩
          exact ⟨fun _ _ _ => .inl lasted, unmixed⟩
        · rintro ⟨-, unmixed⟩
          exact ⟨here, unmixed⟩
      · have here : StoresOwn (completion request, own) := fun kept => absurd kept lasted
        rw [if_neg lasted, empty] at after
        by_cases nothing : own = ([], [])
        · rw [ih (after.trans nothing)]
          constructor
          · rintro ⟨-, unmixed⟩
            exact ⟨fun _ _ _ => .inr nothing, unmixed⟩
          · rintro ⟨-, unmixed⟩
            exact ⟨here, unmixed⟩
        · have later : accumulated request.httpOnHeaderValueComplete.1 = glue own ([], []) := by
            rw [after]
            simp [glue]
          constructor
          · rintro ⟨-, right⟩
            have none_kept := glued_stores nothing later calls right
            refine ⟨fun entry member kept => ?_, ?_⟩
            · rw [none_kept entry member] at kept
              cases kept
            · exact List.pairwise_of_forall_mem_list fun _ _ entry member kept => by
                rw [none_kept entry member] at kept
                cases kept
          · rintro ⟨apart, -⟩
            refine ⟨here, fun entry member kept => ?_⟩
            rcases apart entry member kept with kept | none
            · exact absurd kept lasted
            · exact absurd none nothing
    · rw [stores_other complete]
      split
      · rename_i taken
        have later : accumulated (request.callback call).1 = addSpan own call := by
          rw [callback_accumulated complete taken, empty]
        exact ih later
      · simp [Unmixed]

theorem completions_length (request : HttpRequestCtx T) (own : List Byte × List Byte) (calls : List Callback) :
    (completions request calls).length ≤ (ownFields own calls).length := by
  induction calls generalizing request own with
  | nil => exact Nat.zero_le _
  | cons call calls ih =>
    by_cases complete : call = .headerValueComplete
    · have later := ih (request.callback call).1 ([], [])
      simp only [completions, ownFields, if_pos complete, List.length_append, List.length_cons, List.length_nil]
      split
      · omega
      · simp
    · have later := ih (request.callback call).1 (addSpan own call)
      simp only [completions, ownFields, if_neg complete, List.nil_append]
      split
      · exact later
      · simp

theorem completions_part (request : HttpRequestCtx T) {front calls : List Callback} (part : front <+: calls) :
    completions request front <+: completions request calls := by
  obtain ⟨rest, rfl⟩ := part
  induction front generalizing request with
  | nil => exact List.nil_prefix
  | cons call front ih =>
    simp only [List.cons_append, completions]
    rw [List.prefix_append_right_inj]
    split
    · exact ih _
    · exact List.prefix_rfl

theorem callbacks_headers (request : HttpRequestCtx T) (calls : List Callback) {name value : List Byte}
    (found : (request.callbacks calls).1.headers.get name = some value) :
    request.headers.get name = some value ∨
      ∃ stored ∈ completions request calls, stored.lasted = true ∧ stored.name = name ∧ stored.value = value := by
  induction calls generalizing request with
  | nil => exact .inl found
  | cons call calls ih =>
    have before : (request.callback call).1.headers.get name = some value ∨
        ∃ stored ∈ completions request (call :: calls),
          stored.lasted = true ∧ stored.name = name ∧ stored.value = value := by
      simp only [HttpRequestCtx.callbacks] at found
      split at found
      · rename_i taken
        rcases ih _ found with sooner | ⟨stored, member, here⟩
        · exact .inl sooner
        · refine .inr ⟨stored, ?_, here⟩
          simp only [completions, if_pos taken]
          exact List.mem_append_right _ member
      · exact .inl found
    rcases before with sooner | later
    · by_cases complete : call = .headerValueComplete
      · subst complete
        have headers := (headerValueComplete_result request).2.1
        simp only [HttpRequestCtx.callback, headers] at sooner
        split at sooner
        · rename_i lasted
          simp only [StringHashMap.put] at sooner
          split at sooner
          · rename_i same
            refine .inr ⟨completion request, ?_, lasted, same.symm, Option.some.inj sooner⟩
            simp [completions]
          · exact .inl sooner
        · exact .inl sooner
      · rw [callback_headers request complete] at sooner
        exact .inl sooner
    · exact .inr later

theorem headers_own_iff (T : Type) (allocator : Allocator) (reported : ReportedRequest)
    (trailers : List ReportedHeader) :
    let entries := (completions ({ allocator } : HttpRequestCtx T) (reported.trailed trailers)).zip
      (reported.fields trailers)
    ((∀ front, front <+: reported.trailed trailers → ∀ name value,
        (({ allocator } : HttpRequestCtx T).callbacks front).1.headers.get name = some value →
          ∃ field ∈ reported.fields trailers, name = ascii.lowerString field.1 ∧ value = field.2) ∧
      ∀ entry ∈ entries, StoresOwn entry) ↔ Unmixed entries := by
  have whole := @stores_own_iff T _ _ { allocator } ([], []) rfl (reported.trailed trailers)
  have length := completions_length ({ allocator } : HttpRequestCtx T) ([], []) (reported.trailed trailers)
  rw [stores, ownFields_trailed] at whole
  rw [ownFields_trailed] at length
  intro entries
  rw [← whole, and_iff_right_iff_imp]
  intro right front part name value found
  rcases callbacks_headers _ front found with nothing | ⟨stored, member, lasted, rfl, rfl⟩
  · cases nothing
  · have inside := (completions_part _ part).subset member
    rw [← List.map_fst_zip length] at inside
    obtain ⟨entry, listed, rfl⟩ := List.mem_map.mp inside
    exact ⟨entry.2, (List.of_mem_zip listed).2, right entry listed lasted⟩

end Glue

section Short

def twoHeaders : ReportedRequest where
  target := [text "/"]
  headers := [⟨[text "A"], [text "1"]⟩, ⟨[text "B"], [text "2"]⟩]
  content := []
  nonempty := no_spans

/-- The copy of the first name is refused. -/
def shortOnce : Allocator := { outcomes := [true, true, true, false] }

theorem second_header_glued :
    letI := scripted [] .ok
    letI := halfAgain
    (({ allocator := shortOnce } : HttpRequestCtx Unit).callbacks (twoHeaders.trailed [])).1.headers.get (text "ab") =
        some (text "12") ∧
      ¬ ∃ field ∈ twoHeaders.fields [], text "ab" = ascii.lowerString field.1 ∧ text "12" = field.2 := by
  exact ⟨by decide, by decide⟩

end Short

end ZapeProof
