import Mathlib.Data.List.Infix

/-! Streams of words that tell where they end, and what a reader makes of any part of one. -/
namespace Machine

variable {ι α β : Type*}

/-- Takes one word off the front of a stream, as soon as all of it is there. -/
abbrev Reader (ι α : Type*) := List ι → Option (α × List ι)

/-- The words at the front of a stream, and what is left behind the last whole one. -/
def readStream (read : Reader ι α) : Nat → List ι → List α × List ι
  | 0, stream => ([], stream)
  | fuel + 1, stream =>
    match read stream with
    | none => ([], stream)
    | some (word, rest) =>
      let (words, left) := readStream read fuel rest
      (word :: words, left)

/-- The reader takes a word whatever follows it, and nothing as long as a symbol of the word is missing. -/
structure Delimits (read : Reader ι α) (encode : α → List ι) (admissible : α → Prop) : Prop where
  whole : ∀ word rest, admissible word → read (encode word ++ rest) = some (word, rest)
  part : ∀ word stream missing, admissible word → stream ++ missing = encode word → missing ≠ [] →
    read stream = none
  empty : read [] = none

/-- How far a reader has come in a stream of words: the words taken, and what is there of the next one. -/
structure StreamRead (encode : α → List ι) (words : List α) (stream : List ι) (taken : List α) (left : List ι) : Prop where
  read : stream = taken.flatMap encode ++ left
  first : taken <+: words
  pending : ∀ word ∈ (words.drop taken.length).head?, ∃ missing, missing ≠ [] ∧ left ++ missing = encode word
  drained : taken = words → left = []

/-- A stream that is cut off somewhere ends inside of its first part, or behind it. -/
theorem cut_cases {first second stream missing : List ι} (split : stream ++ missing = first ++ second) :
    (∃ left, left ≠ [] ∧ stream ++ left = first) ∨ ∃ begun, stream = first ++ begun ∧ begun ++ missing = second := by
  by_cases past : first <+: stream
  · obtain ⟨begun, rfl⟩ := past
    rw [List.append_assoc, List.append_cancel_left_eq] at split
    exact .inr ⟨begun, rfl, split⟩
  · have inside : stream <+: first := by
      rcases List.prefix_or_prefix_of_prefix ⟨missing, split⟩ (List.prefix_append first second) with inside | reaches
      · exact inside
      · exact absurd reaches past
    obtain ⟨left, ended⟩ := inside
    refine .inl ⟨left, ?_, ended⟩
    rintro rfl
    rw [List.append_nil] at ended
    exact past (by rw [ended])

namespace Delimits

variable {read : Reader ι α} {encode : α → List ι} {admissible : α → Prop}

theorem nonempty (delimits : Delimits read encode admissible) {word : α} (admitted : admissible word) :
    encode word ≠ [] := by
  intro empty
  have taken := delimits.whole word [] admitted
  rw [empty, List.append_nil, delimits.empty] at taken
  cases taken

theorem readStream_stuck {stream : List ι} (stuck : read stream = none) (fuel : Nat) :
    readStream read fuel stream = ([], stream) := by
  cases fuel with
  | zero => rfl
  | succ fuel => simp only [readStream, stuck]

theorem readStream_cons (delimits : Delimits read encode admissible) {word : α} (admitted : admissible word)
    (fuel : Nat) (rest : List ι) :
    readStream read (fuel + 1) (encode word ++ rest) =
      (word :: (readStream read fuel rest).1, (readStream read fuel rest).2) := by
  rw [readStream, delimits.whole word rest admitted]

/-- Of any part of a stream the reader takes just the words that are whole. -/
theorem readStream_progress (delimits : Delimits read encode admissible) {words : List α}
    (admitted : ∀ word ∈ words, admissible word) {stream : List ι} (part : stream <+: words.flatMap encode)
    {fuel : Nat} (enough : stream.length ≤ fuel) :
    StreamRead encode words stream (readStream read fuel stream).1 (readStream read fuel stream).2 := by
  induction words generalizing stream fuel with
  | nil =>
    have nothing : stream = [] := List.prefix_nil.mp part
    subst nothing
    rw [readStream_stuck delimits.empty]
    exact { read := rfl, first := List.prefix_rfl, pending := by simp, drained := fun _ => rfl }
  | cons word words ih =>
    have own := admitted word (by simp)
    obtain ⟨rest, split⟩ := part
    rw [List.flatMap_cons] at split
    rcases cut_cases split with ⟨missing, some_missing, ended⟩ | ⟨more, rfl, later⟩
    · rw [readStream_stuck (delimits.part word stream missing own ended some_missing)]
      refine { read := rfl, first := List.nil_prefix, pending := ?_, drained := by simp }
      intro next first
      cases first
      exact ⟨missing, some_missing, ended⟩
    · have positive := List.length_pos_iff.mpr (delimits.nonempty own)
      rw [List.length_append] at enough
      obtain ⟨spent, rfl⟩ : ∃ spent, fuel = spent + 1 := ⟨fuel - 1, by omega⟩
      have progress := ih (fun other member => admitted other (by simp [member])) ⟨rest, later⟩
        (show more.length ≤ spent by omega)
      rw [delimits.readStream_cons own]
      refine { read := ?_, first := ?_, pending := progress.pending, drained := ?_ }
      · rw [List.flatMap_cons, List.append_assoc, ← progress.read]
      · exact List.cons_prefix_cons.mpr ⟨rfl, progress.first⟩
      · intro all
        exact progress.drained (List.cons.inj all).2

theorem readStream_words (delimits : Delimits read encode admissible) {words : List α}
    (admitted : ∀ word ∈ words, admissible word) {fuel : Nat} (enough : words.length ≤ fuel) :
    readStream read fuel (words.flatMap encode) = (words, []) := by
  induction words generalizing fuel with
  | nil => exact readStream_stuck delimits.empty fuel
  | cons word words ih =>
    rw [List.length_cons] at enough
    obtain ⟨spent, rfl⟩ : ∃ spent, fuel = spent + 1 := ⟨fuel - 1, by omega⟩
    rw [List.flatMap_cons, delimits.readStream_cons (admitted word (by simp)),
      ih (fun other member => admitted other (by simp [member])) (by omega)]

theorem words_le_stream (delimits : Delimits read encode admissible) {words : List α}
    (admitted : ∀ word ∈ words, admissible word) : words.length ≤ (words.flatMap encode).length := by
  induction words with
  | nil => exact Nat.zero_le _
  | cons word words ih =>
    have positive := List.length_pos_iff.mpr (delimits.nonempty (admitted word (by simp)))
    have later := ih fun other member => admitted other (by simp [member])
    rw [List.flatMap_cons, List.length_append, List.length_cons]
    omega

/-- No two lists of words make the same stream. -/
theorem stream_injective (delimits : Delimits read encode admissible) {left right : List α}
    (first : ∀ word ∈ left, admissible word) (second : ∀ word ∈ right, admissible word)
    (same : left.flatMap encode = right.flatMap encode) : left = right := by
  have one := delimits.readStream_words first (Nat.le_max_left left.length right.length)
  have other := delimits.readStream_words second (Nat.le_max_right left.length right.length)
  rw [same, other] at one
  exact (congrArg Prod.fst one).symm

end Delimits

/-- The same of a word that stands behind another one, and may be empty. -/
structure Cuts (read : Reader ι α) (encode : α → List ι) (admissible : α → Prop) : Prop where
  whole : ∀ word rest, admissible word → read (encode word ++ rest) = some (word, rest)
  part : ∀ word stream missing, admissible word → stream ++ missing = encode word → missing ≠ [] →
    read stream = none

/-- A word, and another one that is read as the first one demands. -/
def readPair (read : Reader ι α) (readNext : α → Reader ι β) : Reader ι (α × β) := fun stream =>
  match read stream with
  | none => none
  | some (word, rest) => (readNext word rest).map fun (next, rest) => ((word, next), rest)

/-- Words up to one that ends their list. -/
def readUntil (read : Reader ι α) (ends : α → Bool) : Nat → Reader ι (List α)
  | 0, _ => none
  | fuel + 1, stream =>
    match read stream with
    | none => none
    | some (word, rest) =>
      if ends word then some ([], rest)
      else (readUntil read ends fuel rest).map fun (words, rest) => (word :: words, rest)

section Composition

variable {read : Reader ι α} {encode : α → List ι} {admissible : α → Prop}

theorem Delimits.pair (delimits : Delimits read encode admissible) {readNext : α → Reader ι β} {encodeNext : β → List ι}
    {admits : α → β → Prop} (cuts : ∀ word, admissible word → Cuts (readNext word) encodeNext (admits word)) :
    Delimits (readPair read readNext) (fun pair => encode pair.1 ++ encodeNext pair.2)
      (fun pair => admissible pair.1 ∧ admits pair.1 pair.2) where
  whole := by
    rintro ⟨word, next⟩ rest ⟨admitted, admitted'⟩
    simp only [readPair]
    rw [List.append_assoc, delimits.whole word _ admitted]
    simp only [(cuts word admitted).whole next rest admitted', Option.map_some]
  part := by
    rintro ⟨word, next⟩ stream missing ⟨admitted, admitted'⟩ split more
    simp only [readPair]
    rcases cut_cases split with ⟨left, some_left, ended⟩ | ⟨begun, rfl, ended⟩
    · rw [delimits.part word stream left admitted ended some_left]
    · rw [delimits.whole word begun admitted]
      simp only [(cuts word admitted).part next begun missing admitted' ended more, Option.map_none]
  empty := by
    simp only [readPair, delimits.empty]

section Until

variable (delimits : Delimits read encode admissible) {ends : α → Bool} {last : α} (admitted : admissible last)
include delimits admitted

theorem until_whole (stops : ends last = true) {words : List α} {fuel : Nat}
    (all : ∀ word ∈ words, admissible word ∧ ends word = false) (enough : words.length < fuel) (rest : List ι) :
    readUntil read ends fuel (words.flatMap encode ++ encode last ++ rest) = some (words, rest) := by
  induction words generalizing fuel with
  | nil =>
    obtain ⟨fuel, rfl⟩ : ∃ less, fuel = less + 1 := ⟨fuel - 1, by rw [List.length_nil] at enough; omega⟩
    simp only [readUntil, List.flatMap_nil, List.nil_append, delimits.whole last rest admitted, stops, if_true]
  | cons word words ih =>
    rw [List.length_cons] at enough
    obtain ⟨fuel, rfl⟩ : ∃ less, fuel = less + 1 := ⟨fuel - 1, by omega⟩
    obtain ⟨own, goes_on⟩ := all word (by simp)
    rw [List.flatMap_cons, List.append_assoc, List.append_assoc, readUntil, delimits.whole word _ own]
    simp only [goes_on, Bool.false_eq_true, if_false]
    rw [← List.append_assoc, ih (fun other member => all other (by simp [member])) (by omega), Option.map_some]

theorem until_part {words : List α} (all : ∀ word ∈ words, admissible word ∧ ends word = false) {stream missing : List ι}
    (split : stream ++ missing = words.flatMap encode ++ encode last) (more : missing ≠ []) (fuel : Nat) :
    readUntil read ends fuel stream = none := by
  induction words generalizing stream fuel with
  | nil =>
    cases fuel with
    | zero => rfl
    | succ fuel => simp only [readUntil, delimits.part last stream missing admitted split more]
  | cons word words ih =>
    obtain ⟨own, goes_on⟩ := all word (by simp)
    cases fuel with
    | zero => rfl
    | succ fuel =>
      rw [List.flatMap_cons, List.append_assoc] at split
      rcases cut_cases split with ⟨left, some_left, ended⟩ | ⟨begun, rfl, ended⟩
      · simp only [readUntil, delimits.part word stream left own ended some_left]
      · simp only [readUntil, delimits.whole word begun own, goes_on, Bool.false_eq_true, if_false]
        rw [ih (fun other member => all other (by simp [member])) ended, Option.map_none]

theorem Delimits.until (stops : ends last = true) :
    Delimits (fun stream => readUntil read ends stream.length stream)
      (fun words : List α => words.flatMap encode ++ encode last)
      (fun words => ∀ word ∈ words, admissible word ∧ ends word = false) where
  whole := by
    intro words rest all
    apply until_whole delimits admitted stops all
    have short := delimits.words_le_stream fun word member => (all word member).1
    have positive := List.length_pos_iff.mpr (delimits.nonempty admitted)
    rw [List.length_append, List.length_append]
    omega
  part := by
    intro words stream missing all split more
    exact until_part delimits admitted all split more _
  empty := rfl

end Until

end Composition

end Machine
