import Mathlib.Data.List.Range

/-! Memory cells that are read and written in intervals. -/
namespace Machine

variable {β : Type*}

def readCells (cells : Nat → β) (start count : Nat) : List β := (List.range' start count).map cells

def writeCells (cells : Nat → β) (start : Nat) (values : List β) (index : Nat) : β :=
  if start ≤ index then values[index - start]?.getD (cells index) else cells index

section Cells

variable {cells other : Nat → β} {start count : Nat} {values : List β}

@[simp] theorem readCells_length : (readCells cells start count).length = count := by
  rw [readCells, List.length_map, List.length_range']

theorem readCells_add (more : Nat) :
    readCells cells start (count + more) = readCells cells start count ++ readCells cells (start + count) more := by
  rw [readCells, readCells, readCells, ← List.map_append, List.range'_append_1]

theorem readCells_congr (same : ∀ index, start ≤ index → index < start + count → cells index = other index) :
    readCells cells start count = readCells other start count := by
  apply List.map_congr_left
  intro index member
  obtain ⟨from_start, to_end⟩ := List.mem_range'_1.mp member
  exact same index from_start to_end

theorem readCells_list {data : List β} (inside : start + count ≤ data.length) :
    readCells (data[·]?) start count = ((data.drop start).take count).map some := by
  apply List.ext_getElem
  · rw [readCells_length, List.length_map, List.length_take, List.length_drop]
    omega
  · intro index bound bound'
    rw [readCells_length] at bound
    simp [readCells, show start + index < data.length by omega]

/-- What was written is read again. -/
theorem readCells_written : readCells (writeCells cells start values) start values.length = values := by
  apply List.ext_getElem
  · exact readCells_length
  · intro index bound inside
    simp [readCells, writeCells, inside]

theorem readCells_before (apart : start + count ≤ other_start) :
    readCells (writeCells cells other_start values) start count = readCells cells start count := by
  apply readCells_congr
  intro index _ below
  rw [writeCells, if_neg (by omega)]

/-- Writing what is there already changes nothing. -/
theorem writeCells_read : writeCells cells start (readCells cells start count) = cells := by
  funext index
  rw [writeCells]
  split
  · rename_i above
    by_cases inside : index - start < count
    · simp [readCells, inside, Nat.add_sub_cancel' above]
    · rw [List.getElem?_eq_none (by rw [readCells_length]; omega), Option.getD_none]
  · rfl

end Cells

/-- Cells that begin with these values, and then maybe one more; the others are empty. -/
def Begins (cells : Nat → Option β) (values : List β) (mark : Option β) : Prop :=
  ∀ index, cells index = if index = values.length then mark else values[index]?

section Begins

variable {cells : Nat → Option β} {values : List β} {mark : Option β}

theorem begins_append (begins : Begins cells values mark) (more : List β) :
    Begins (writeCells cells values.length (more.map some)) (values ++ more) (if more = [] then mark else none) := by
  intro index
  have old := begins index
  unfold writeCells
  rw [List.length_append]
  by_cases before : index < values.length
  · rw [if_neg (by omega), if_neg (by omega), old, if_neg (by omega), List.getElem?_append_left before]
  · rw [if_pos (by omega), List.getElem?_append_right (by omega), List.getElem?_map]
    by_cases inside : index - values.length < more.length
    · rw [if_neg (by omega), List.getElem?_eq_getElem inside]
      rfl
    · rw [List.getElem?_eq_none (by omega), Option.map_none, Option.getD_none, old]
      by_cases none : more = []
      · rw [if_pos none, none, List.length_nil, Nat.add_zero]
        split
        · rfl
        · exact List.getElem?_eq_none (by omega)
      · have positive := List.length_pos_iff.mpr none
        rw [if_neg none, if_neg (by omega), List.getElem?_eq_none (by omega), ite_self]

theorem begins_mark (begins : Begins cells values mark) (value : β) :
    Begins (writeCells cells values.length [some value]) values (some value) := by
  intro index
  have old := begins index
  unfold writeCells
  by_cases here : index = values.length
  · rw [if_pos here.ge, if_pos here, here, Nat.sub_self]
    rfl
  · rw [if_neg here] at old ⊢
    split
    · rw [List.getElem?_eq_none (by simp; omega), Option.getD_none, old]
    · exact old

theorem begins_read (begins : Begins cells values mark) : readCells cells 0 values.length = values.map some := by
  apply List.ext_getElem
  · rw [readCells_length, List.length_map]
  · intro index bound inside
    rw [readCells_length] at bound
    have here := begins index
    rw [if_neg (by omega), List.getElem?_eq_getElem bound] at here
    simp [readCells, here]

theorem begins_none : Begins (fun _ => none) ([] : List β) none := by
  intro index
  simp

theorem begins_below {size : Nat} (begins : Begins cells values mark) (room : values.length ≤ size)
    (marked : mark ≠ none → values.length < size) :
    Begins (fun index => if index < size then cells index else none) values mark := by
  intro index
  have old := begins index
  dsimp only
  by_cases below : index < size
  · rw [if_pos below, old]
  · rw [if_neg below]
    split
    · rename_i last
      cases mark with
      | none => rfl
      | some value =>
        have inside := marked (Option.some_ne_none value)
        omega
    · exact (List.getElem?_eq_none (by omega)).symm

end Begins

end Machine
