import Zape.Http.Parser

/-! A parser that knows one stream, and that what is assumed of `llhttp` holds of it. -/
namespace ZapeProof

open Machine ZapeModel

/-- What a parser reports at each byte of a stream it knows, and how it ends. -/
def follow (final : Errno) : List (Byte × List Callback) → List Byte →
    List (Byte × List Callback) × List Callback × Errno
  | script, [] => (script, [], .ok)
  | [], _ :: _ => ([], [], .other 1)
  | (byte, calls) :: script, next :: data =>
    if next ≠ byte then (script, [], .other 1)
    else if script = [] then ([], calls, final)
    else
      let (left, later, errno) := follow final script data
      (left, calls ++ later, errno)

@[reducible] def scripted (script : List (Byte × List Callback)) (final : Errno) : Llhttp where
  Parser := List (Byte × List Callback)
  init := script
  run := follow final

theorem follow_append (final : Errno) (pieces rest : List (Byte × List Callback)) :
    follow final (pieces ++ rest) (pieces.map Prod.fst) =
      (rest, pieces.flatMap Prod.snd, if pieces ≠ [] ∧ rest = [] then final else .ok) := by
  induction pieces with
  | nil => cases rest <;> rfl
  | cons piece pieces ih =>
    by_cases last : pieces ++ rest = []
    · obtain ⟨rfl, rfl⟩ := List.append_eq_nil_iff.mp last
      simp [follow]
    · rw [List.cons_append, List.map_cons, follow, if_neg (by simp), if_neg last, ih]
      have ends : (pieces ≠ [] ∧ rest = []) ↔ rest = [] := by
        constructor
        · exact And.right
        · rintro rfl
          exact ⟨by simpa using last, rfl⟩
      simp [ends]

theorem follow_beyond (final : Errno) {script : List (Byte × List Callback)} (more : script ≠ []) (extra : List Byte) :
    follow final script (script.map Prod.fst ++ extra) = ([], script.flatMap Prod.snd, final) := by
  induction script with
  | nil => exact absurd rfl more
  | cons entry script ih =>
    by_cases last : script = []
    · subst last
      simp [follow]
    · rw [List.map_cons, List.cons_append, follow, if_neg (by simp), if_neg last, ih last]
      rfl

theorem follow_ok (pieces rest : List (Byte × List Callback)) :
    follow .ok (pieces ++ rest) (pieces.map Prod.fst) = (rest, pieces.flatMap Prod.snd, .ok) := by
  rw [follow_append, ite_self]

/-- Pieces of the stream that do not reach its end. -/
theorem scripted_continues (start : List (Byte × List Callback)) (final : Errno) {script : List (Byte × List Callback)}
    {pieces : List (List Byte)} {rest : List Byte} (more : rest ≠ [])
    (bytes : pieces.flatten ++ rest = script.map Prod.fst) :
    ∃ left right, script = left ++ right ∧ right.map Prod.fst = rest ∧
      @Llhttp.Continues (scripted start final) script pieces (left.flatMap Prod.snd) right := by
  induction pieces generalizing script with
  | nil => exact ⟨[], script, rfl, bytes.symm, @Llhttp.Continues.nil (scripted start final) script⟩
  | cons piece pieces ih =>
    rw [List.flatten_cons, List.append_assoc] at bytes
    obtain ⟨first, others, rfl, here, later⟩ := List.map_eq_append_iff.mp bytes.symm
    obtain ⟨left, right, rfl, last, continues⟩ := ih later.symm
    refine ⟨first ++ left, right, by simp, last, ?_⟩
    have inside : left ++ right ≠ [] := by
      intro empty
      rw [empty] at later
      simp [more] at later
    have ran := follow_append final first (left ++ right)
    rw [if_neg (by simp [inside]), here] at ran
    rw [List.flatMap_append]
    exact @Llhttp.Continues.cons (scripted start final) _ _ _ _ _ _ _ ran continues

theorem scripted_pauses {opening : List (Byte × List Callback)} {last : Byte × List Callback}
    {reported : ReportedRequest} (calls : (opening ++ [last]).flatMap Prod.snd = reported.calls)
    (incomplete : ∀ entry ∈ opening, .messageComplete ∉ entry.2) :
    @Llhttp.PausesAfter (scripted (opening ++ [last]) .pausedUpgrade) ((opening ++ [last]).map Prod.fst)
      reported.meaning := by
  intro pieces rest extra _ bytes more
  obtain ⟨left, right, same, reads, continues⟩ :=
    scripted_continues (opening ++ [last]) .pausedUpgrade more bytes
  have some_right : right ≠ [] := by
    rintro rfl
    exact more reads.symm
  have ran := follow_beyond .pausedUpgrade some_right extra
  rw [reads] at ran
  refine ⟨reported, _, _, _, _, continues, ran, ?_, rfl, ?_⟩
  · rw [← calls, same, List.flatMap_append]
  · obtain ⟨front, rfl⟩ : ∃ front, opening = left ++ front := by
      rcases List.append_eq_append_iff.mp same with ⟨tail, rfl, split⟩ | ⟨front, rfl, -⟩
      · rcases List.singleton_eq_append_iff.mp split with ⟨rfl, -⟩ | ⟨-, empty⟩
        · exact ⟨[], by simp⟩
        · exact absurd empty some_right
      · exact ⟨front, rfl⟩
    intro member
    obtain ⟨entry, inside, found⟩ := List.mem_flatMap.mp member
    exact incomplete entry (List.mem_append_left _ inside) found

def silent (bytes : List Byte) : List (Byte × List Callback) := bytes.map (·, [])

def spans (report : List Byte → Callback) (bytes : List Byte) : List (Byte × List Callback) :=
  bytes.map fun byte => (byte, [report [byte]])

def headerScript (name value : List Byte) : List (Byte × List Callback) :=
  spans .headerField name ++ [(0x3A#8, [.headerFieldComplete]), (0x20#8, [])] ++ spans .headerValue value ++
    [(0x0D#8, [.headerValueComplete]), (0x0A#8, [])]

end ZapeProof
